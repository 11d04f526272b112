import Sweater.Machine.Decimals
import Sweater.Threading.CgroupPath

namespace Sweater
namespace Threading

open Machine CStrings

/-!
# The CPU quota of the process

A quota on any ancestor of a control group constrains the group too, and so the
branch of the process is walked from its own directory up to the root of the
hierarchy.  The names of the files are assembled in a buffer of `path_size`
bytes, the name of a directory in a larger one.  A name that does not fit is
cut, and names a file that is not there.
-/

namespace Cgroup

/-- What the width of `long` is on the platform. -/
inductive DataModel
  | ilp32
  | lp64
  deriving DecidableEq, Repr

def DataModel.longBits : DataModel -> Nat
  | ilp32 => 32
  | lp64 => 64

/-- The contents of the files that exist. -/
abbrev Files := Bytes -> Option Bytes

/-! ## The code -/

/-- `std::snprintf( buffer, size, "%s%s", first, second )` -/
def snprintf (size : Nat) (first second : Bytes) : Bytes := (first ++ second).take (size - 1)

def pathSize : Nat := 512

/-- `read_text` -/
def readText (files : Files) (filePath : Bytes) (size : Nat) : Option Bytes :=
  match files filePath with
  | none => none
  | some content => if content = [] then none else some (content.take (size - 1))

/-- `static_cast<int>` -/
def toInt (value : Int) : Int := value.bmod (2 ^ 32)

def atoi (model : DataModel) (text : Bytes) : Int := toInt (strtol model.longBits text).1

/-- `read_int` -/
def readInt (model : DataModel) (files : Files) (filePath : Bytes) : Int :=
  match readText files filePath 64 with
  | none => -1
  | some text => atoi model text

/-- `cpus_from_quota`.  There is no result when the sum is not a `long`. -/
def cpusFromQuota (model : DataModel) (quota period : Int) : Option Int :=
  if quota ≤ 0 ∨ period ≤ 0 then some (-1)
  else if quota + period / 2 < 2 ^ (model.longBits - 1) then some (max (toInt ((quota + period / 2) / period)) 1)
  else none

/-- "/cpu.max" -/
def cpuMax : Bytes := [47, 99, 112, 117, 46, 109, 97, 120]

/-- "/cpu.cfs_quota_us" -/
def cfsQuota : Bytes := [47, 99, 112, 117, 46, 99, 102, 115, 95, 113, 117, 111, 116, 97, 95, 117, 115]

/-- "/cpu.cfs_period_us" -/
def cfsPeriod : Bytes := [47, 99, 112, 117, 46, 99, 102, 115, 95, 112, 101, 114, 105, 111, 100, 95, 117, 115]

/-- `read_quota_v2` -/
def readQuotaV2 (model : DataModel) (files : Files) (dir : Bytes) : Option Int :=
  match readText files (snprintf pathSize dir cpuMax) 128 with
  | none => some (-1)
  | some valuePair =>
      let quota := strtol model.longBits valuePair
      if quota.2 = valuePair then some (-1)
      else cpusFromQuota model quota.1 (strtol model.longBits quota.2).1

/-- `read_quota_v1` -/
def readQuotaV1 (model : DataModel) (files : Files) (dir : Bytes) : Option Int :=
  cpusFromQuota model (readInt model files (snprintf pathSize dir cfsQuota))
    (readInt model files (snprintf pathSize dir cfsPeriod))

def readQuota (model : DataModel) (files : Files) (v2 : Bool) (dir : Bytes) : Option Int :=
  if v2 then readQuotaV2 model files dir else readQuotaV1 model files dir

/-- `std::strrchr`, as an index. -/
def strrchr (wanted : UInt8) : Bytes -> Option Nat
  | [] => none
  | byte :: rest =>
      match strrchr wanted rest with
      | some place => some (place + 1)
      | none => if byte = wanted then some 0 else none

/-- The update of `limit` by the quota of one directory. -/
def moreRestrictive (limit quota : Int) : Int :=
  if 0 < quota then (if limit = -1 then quota else min limit quota) else limit

/-- The loop of `scan_branch`, for at most `fuel` rounds. -/
def scanFrom (read : Bytes -> Option Int) (rootLength : Nat) : Nat -> Bytes -> Int -> Option Int
  | 0, _, _ => none
  | fuel + 1, dir, limit => do
      let quota ← read dir
      if dir.length ≤ rootLength then some (moreRestrictive limit quota)
      else match strrchr slash (dir.drop rootLength) with
        | none => some (moreRestrictive limit quota)
        | some place => scanFrom read rootLength fuel (dir.take (rootLength + place)) (moreRestrictive limit quota)

/-- `scan_branch` -/
def scanBranch (model : DataModel) (files : Files) (dir : Bytes) (rootLength : Nat) (v2 : Bool) : Option Int :=
  scanFrom (readQuota model files v2) rootLength (dir.length + 1) dir (-1)

/-- "/sys/fs/cgroup" -/
def v2Root : Bytes := [47, 115, 121, 115, 47, 102, 115, 47, 99, 103, 114, 111, 117, 112]

/-- "/sys/fs/cgroup/cpu" -/
def v1Root : Bytes := v2Root ++ [47, 99, 112, 117]

def rootOf (v2 : Bool) : Bytes := if v2 then v2Root else v1Root

/-- The end of `get_docker_limit`. -/
def combineLimits (v2Limit v1Limit : Int) : Int :=
  if v2Limit = -1 then v1Limit else if v1Limit = -1 then v2Limit else min v2Limit v1Limit

/-- One hierarchy of `get_docker_limit`, from the relative path on. -/
def scanHierarchy (model : DataModel) (files : Files) (v2 : Bool) (relativePath : Bytes) : Option Int :=
  scanBranch model files (snprintf (pathSize + (v1Root.length + 1)) (rootOf v2) relativePath) (rootOf v2).length v2

/-- "/proc/self/cgroup" -/
def procSelfCgroup : Bytes := [47, 112, 114, 111, 99, 47, 115, 101, 108, 102, 47, 99, 103, 114, 111, 117, 112]

/-- `get_docker_limit` with the bytes that its buffer for relative paths holds at first. -/
def getDockerLimit (model : DataModel) (files : Files) (relativePath : Bytes) : Option Int := do
  let procSelf := (readText files procSelfCgroup 1024).getD []
  let v2Path ← selfCgroup (procSelf ++ [0]) true relativePath
  let v2Limit ← scanHierarchy model files true (stringOf v2Path)
  let v1Path ← selfCgroup (procSelf ++ [0]) false v2Path
  let v1Limit ← scanHierarchy model files false (stringOf v1Path)
  some (combineLimits v2Limit v1Limit)

/-! ## The purpose -/

/-- The quota of one directory. -/
inductive Quota
  | missing
  /-- what stands behind "max" is free -/
  | unlimited (rest : Bytes)
  | limited (quota period : Nat)

namespace Quota

/-- A number as `atoi` reads it. -/
def asInt (model : DataModel) (value : Nat) : Int := toInt (clamp model.longBits value)

/-- The number of CPUs: rounded to the nearest, halves up, and at least one. -/
def cpus : Quota -> Option Nat
  | missing | unlimited _ => none
  | limited quota period => some (max 1 ((2 * quota + period) / (2 * period)))

/-- Positive, and within the range of the rounding sum. -/
def InRange (model : DataModel) : Quota -> Prop
  | missing | unlimited _ => True
  | limited quota period => 0 < quota ∧ 0 < period ∧ quota + period / 2 < 2 ^ (model.longBits - 1)

/-- The conversions to `int` leave the number of CPUs as it is.  The unified
hierarchy converts the result, the other one both numbers. -/
def Converts (model : DataModel) (v2 : Bool) : Quota -> Prop
  | missing | unlimited _ => True
  | limited quota period =>
      if v2 then (2 * quota + period) / (2 * period) < 2 ^ 31
      else 0 < asInt model quota ∧ 0 < asInt model period ∧
        (limited (asInt model quota).toNat (asInt model period).toNat).cpus = (limited quota period).cpus

/-- What `cpus_from_quota` makes of the two numbers. -/
def reading (model : DataModel) (v2 : Bool) : Quota -> Option Int
  | missing | unlimited _ => some (-1)
  | limited quota period =>
      if v2 then cpusFromQuota model (clamp model.longBits quota) (clamp model.longBits period)
      else cpusFromQuota model (asInt model quota) (asInt model period)

/-- `cpu.max` -/
def v2Content : Quota -> Option Bytes
  | missing => none
  | unlimited rest => some ([109, 97, 120] ++ rest)
  | limited quota period => some (decimal quota ++ 32 :: (decimal period ++ [newline]))

/-- `cpu.cfs_quota_us`; no limit is written as -1. -/
def v1Content : Quota -> Option Bytes
  | missing => none
  | unlimited _ => some [45, 49, newline]
  | limited quota _ => some (decimal quota ++ [newline])

/-- `cpu.cfs_period_us` -/
def v1Period : Quota -> Option Bytes
  | missing => none
  | unlimited rest => some rest
  | limited _ period => some (decimal period ++ [newline])

end Quota

/-- The group itself, the root of the hierarchy, and every ancestor in between. -/
def OnBranch (relativePath ancestor : Bytes) : Prop :=
  ancestor = relativePath ∨ ancestor = [] ∨ Exists fun rest => relativePath = ancestor ++ slash :: rest

/-- The files of one directory of a hierarchy. -/
def Describes (files : Files) (v2 : Bool) (directory : Bytes) (quota : Quota) : Prop :=
  if v2 then files (directory ++ cpuMax) = quota.v2Content
  else files (directory ++ cfsQuota) = quota.v1Content ∧ files (directory ++ cfsPeriod) = quota.v1Period

/-- The least of the numbers that have been found, and -1 if and only if there is none. -/
def IsLimit (found : Nat -> Prop) (limit : Int) : Prop :=
  (limit = -1 ∧ forall cpus, ¬found cpus) ∨
    Exists fun cpus => found cpus ∧ limit = (cpus : Int) ∧ forall other, found other -> cpus ≤ other

/-- The longer one of the file names of a hierarchy. -/
def longestName (v2 : Bool) : Bytes := if v2 then cpuMax else cfsPeriod

/-- Every file name of the branch fits into its buffer. -/
def NamesFit (v2 : Bool) (relativePath : Bytes) : Prop :=
  (rootOf v2 ++ relativePath ++ longestName v2).length < pathSize

/-- The sentinel for "no quota in place". -/
def asLimit : Option Nat -> Int
  | none => -1
  | some cpus => cpus

/-! ## One directory -/

section Directory

variable {model : DataModel} {files : Files}

theorem toInt_of_lt {value : Nat} (small : value < 2 ^ 31) : toInt value = value := by
  rw [toInt]
  apply Int.bmod_eq_of_le <;> omega

/-- The integer arithmetic rounds to the nearest, halves up. -/
theorem rounded (quota period : Nat) : (quota + period / 2) / period = (2 * quota + period) / (2 * period) := by
  rw [← Nat.div_div_eq_div_mul]
  congr 1
  omega

theorem cpusFromQuota_eq {quota period : Nat} (positive : 0 < quota) (positiveToo : 0 < period)
    (sum : quota + period / 2 < 2 ^ (model.longBits - 1)) :
    cpusFromQuota model quota period = some (max (toInt ((2 * quota + period) / (2 * period) : Nat)) 1) := by
  have room : (quota : Int) + (period : Int) / 2 < 2 ^ (model.longBits - 1) := by
    exact_mod_cast sum
  have quotient : ((quota : Int) + (period : Int) / 2) / (period : Int) = (((2 * quota + period) / (2 * period) : Nat) : Int) := by
    rw [← rounded]
    norm_cast
  rw [cpusFromQuota, if_neg (by omega), if_pos room, quotient]

/-- There is a result, and it is a limit or the sentinel. -/
theorem cpusFromQuota_asLimit {quota period number : Int} (returned : cpusFromQuota model quota period = some number) :
    Exists fun limit => number = asLimit limit ∧ forall cpus, limit = some cpus -> 0 < cpus := by
  rw [cpusFromQuota] at returned
  split at returned
  · cases returned
    exact ⟨none, rfl, nofun⟩
  · split at returned
    · cases returned
      refine ⟨some (max (toInt ((quota + period / 2) / period)) 1).toNat, ?_, ?_⟩
      · rw [asLimit]
        omega
      · rintro cpus same
        cases same
        omega
    · cases returned

theorem snprintf_of_fits {first second : Bytes} {size : Nat} (fits : (first ++ second).length < size) :
    snprintf size first second = first ++ second :=
  List.take_of_length_le (by omega)

theorem readText_none {filePath : Bytes} (size : Nat) (absent : files filePath = none) :
    readText files filePath size = none := by
  rw [readText, absent]

theorem readText_some {filePath content : Bytes} {size : Nat} (present : files filePath = some content)
    (nonempty : content ≠ []) (fits : content.length < size) : readText files filePath size = some content := by
  rw [readText, present]
  change (if content = [] then none else some (content.take (size - 1))) = _
  rw [if_neg nonempty, List.take_of_length_le (by omega)]

/-- A number in range has at most twenty digits. -/
theorem decimal_fits {value : Nat} (small : value / 2 < 2 ^ (model.longBits - 1)) : (decimal value).length ≤ 20 := by
  apply decimal_length
  have wide : 2 ^ (model.longBits - 1) ≤ 2 ^ 63 := Nat.pow_le_pow_right (by omega) (by cases model <;> decide)
  omega

theorem le_longBits (model : DataModel) : 32 ≤ model.longBits := by
  cases model <;> decide

theorem newline_stops : forall byte, ([newline] : Bytes).head? = some byte -> isDigit byte = false := by
  intro byte same
  cases same
  rfl

/-- "max" is not a number. -/
theorem strtol_max (bits : Nat) (rest : Bytes) : strtol bits ([109, 97, 120] ++ rest) = (0, [109, 97, 120] ++ rest) := rfl

theorem readQuotaV2_eq {dir : Bytes} {quota : Quota} (fits : (dir ++ cpuMax).length < pathSize)
    (inRange : quota.InRange model) (content : files (dir ++ cpuMax) = quota.v2Content) :
    readQuotaV2 model files dir = quota.reading model true := by
  rw [readQuotaV2, snprintf_of_fits fits]
  cases quota with
  | missing =>
      rw [readText_none 128 content]
      rfl
  | unlimited rest =>
      have present : readText files (dir ++ cpuMax) 128 = some ([109, 97, 120] ++ rest.take 124) := by
        rw [readText, content]
        rfl
      rw [present]
      dsimp only
      rw [strtol_max, if_pos rfl]
      rfl
  | limited amount period =>
      obtain ⟨positive, positiveToo, sum⟩ := inRange
      have short : (decimal amount).length ≤ 20 := @decimal_fits model amount (by omega)
      have shortToo : (decimal period).length ≤ 20 := @decimal_fits model period (by omega)
      have present : readText files (dir ++ cpuMax) 128 =
          some (decimal amount ++ 32 :: (decimal period ++ [newline])) := by
        apply readText_some content
        · exact List.append_ne_nil_of_right_ne_nil _ (List.cons_ne_nil _ _)
        · simp only [List.length_append, List.length_cons, List.length_nil]
          omega
      have first : strtol model.longBits (decimal amount ++ 32 :: (decimal period ++ [newline])) =
          (clamp model.longBits amount, 32 :: (decimal period ++ [newline])) :=
        strtol_decimal _ positive (by intro byte same; cases same; rfl)
      have second : (strtol model.longBits (32 :: (decimal period ++ [newline]))).1 = clamp model.longBits period := by
        rw [strtol_blank, strtol_decimal _ positiveToo newline_stops]
      have moved : 32 :: (decimal period ++ [newline]) ≠ decimal amount ++ 32 :: (decimal period ++ [newline]) := by
        intro same
        have lengths := congrArg List.length same
        rw [List.length_append] at lengths
        have some_ := List.length_pos_iff.mpr (decimal_ne_nil positive)
        omega
      rw [present]
      dsimp only
      rw [first, if_neg moved, second]
      rfl

theorem readInt_decimal {filePath : Bytes} {value : Nat} (positive : 0 < value)
    (small : value / 2 < 2 ^ (model.longBits - 1)) (content : files filePath = some (decimal value ++ [newline])) :
    readInt model files filePath = Quota.asInt model value := by
  have short : (decimal value).length ≤ 20 := decimal_fits small
  have present : readText files filePath 64 = some (decimal value ++ [newline]) := by
    apply readText_some content
    · exact List.append_ne_nil_of_right_ne_nil _ (List.cons_ne_nil _ _)
    · rw [List.length_append, List.length_singleton]
      omega
  rw [readInt, present]
  dsimp only
  rw [atoi, strtol_decimal _ positive newline_stops]
  rfl

theorem readQuotaV1_eq {dir : Bytes} {quota : Quota} (fits : (dir ++ cfsPeriod).length < pathSize)
    (inRange : quota.InRange model) (content : files (dir ++ cfsQuota) = quota.v1Content)
    (period : files (dir ++ cfsPeriod) = quota.v1Period) :
    readQuotaV1 model files dir = quota.reading model false := by
  have fitsToo : (dir ++ cfsQuota).length < pathSize := by
    rw [List.length_append] at fits ⊢
    have shorter : cfsQuota.length < cfsPeriod.length := by decide
    omega
  rw [readQuotaV1, snprintf_of_fits fits, snprintf_of_fits fitsToo]
  cases quota with
  | missing =>
      have absent : readInt model files (dir ++ cfsQuota) = -1 := by
        rw [readInt, readText_none 64 content]
      rw [absent]
      exact if_pos (Or.inl (by decide))
  | unlimited rest =>
      have present : readText files (dir ++ cfsQuota) 64 = some [45, 49, newline] :=
        readText_some content (List.cons_ne_nil _ _) (by decide)
      have minus : readInt model files (dir ++ cfsQuota) = -1 := by
        rw [readInt, present]
        cases model <;> decide
      rw [minus]
      exact if_pos (Or.inl (by decide))
  | limited amount length =>
      obtain ⟨positive, positiveToo, sum⟩ := inRange
      rw [readInt_decimal positive (by omega) content, readInt_decimal positiveToo (by omega) period]
      rfl

theorem readQuota_eq {v2 : Bool} {dir : Bytes} {quota : Quota} (fits : (dir ++ longestName v2).length < pathSize)
    (inRange : quota.InRange model) (described : Describes files v2 dir quota) :
    readQuota model files v2 dir = quota.reading model v2 := by
  cases v2 with
  | true => exact readQuotaV2_eq fits inRange described
  | false => exact readQuotaV1_eq fits inRange described.1 described.2

end Directory

/-! ## The conversions to `int` -/

namespace Quota

variable {model : DataModel} {quota period : Nat}

theorem toInt_le (value : Nat) : toInt value ≤ value := by
  rw [toInt, Int.bmod_def]
  split <;> omega

theorem toInt_lt (value : Int) : toInt value < 2 ^ 31 := by
  rw [toInt, Int.bmod_def]
  split <;> omega

theorem asLimit_inj {first second : Option Nat} : asLimit first = asLimit second <-> first = second := by
  cases first <;> cases second <;> simp [asLimit]

theorem asLimit_limited : asLimit (limited quota period).cpus = max 1 (((2 * quota + period) / (2 * period) : Nat) : Int) := by
  rw [cpus, asLimit, Nat.cast_max]
  rfl

/-- A period beyond the range of `long` is clamped, and then there is one CPU
in any case. -/
theorem reading_v2 (inRange : (limited quota period).InRange model) :
    (limited quota period).reading model true =
      some (max (toInt ((2 * quota + period) / (2 * period) : Nat)) 1) := by
  obtain ⟨positive, positiveToo, sum⟩ := inRange
  rw [reading, if_pos rfl, clamp_of_lt (Nat.lt_of_le_of_lt (Nat.le_add_right _ _) sum)]
  obtain ⟨half, halves⟩ : Exists fun half => 2 ^ (model.longBits - 1) = 2 * half ∧ 1 < half := by
    cases model
    · exact ⟨2 ^ 30, rfl, by decide⟩
    · exact ⟨2 ^ 62, rfl, by decide⟩
  rcases Nat.lt_or_ge period (2 ^ (model.longBits - 1)) with small | large
  · rw [clamp_of_lt small]
    exact cpusFromQuota_eq positive positiveToo sum
  · have none_ : (2 * quota + period) / (2 * period) = 0 := Nat.div_eq_of_lt (by omega)
    have noneToo : (2 * quota + (2 ^ (model.longBits - 1) - 1)) / (2 * (2 ^ (model.longBits - 1) - 1)) = 0 :=
      Nat.div_eq_of_lt (by omega)
    rw [clamp_of_le large, cpusFromQuota_eq positive (by omega) (by omega), none_, noneToo]

/-- Numbers that become positive ones are no larger then. -/
theorem reading_v1 (inRange : (limited quota period).InRange model) (positive : 0 < asInt model quota)
    (positiveToo : 0 < asInt model period) :
    (limited quota period).reading model false =
      some (asLimit (limited (asInt model quota).toNat (asInt model period).toNat).cpus) := by
  have shrinks : forall value, 0 < asInt model value -> (asInt model value).toNat ≤ value ∧ (asInt model value).toNat < 2 ^ 31 := by
    intro value some_
    have below := toInt_lt (clamp model.longBits value)
    have clamped : clamp model.longBits value = value ∨ clamp model.longBits value = ((2 ^ (model.longBits - 1) - 1 : Nat) : Int) ∧
        2 ^ (model.longBits - 1) ≤ value :=
      (Nat.lt_or_ge value _).imp clamp_of_lt (fun large => ⟨clamp_of_le large, large⟩)
    rw [asInt] at some_ ⊢
    rcases clamped with same | ⟨same, large⟩
    · rw [same] at some_ below ⊢
      have least := toInt_le value
      omega
    · rw [same] at some_ below ⊢
      have least := toInt_le (2 ^ (model.longBits - 1) - 1)
      omega
  obtain ⟨_, _, sum⟩ := inRange
  have first := shrinks quota positive
  have second := shrinks period positiveToo
  rw [reading, if_neg Bool.false_ne_true, asLimit_limited]
  generalize asInt model quota = quotaToo at positive first ⊢
  generalize asInt model period = periodToo at positiveToo second ⊢
  obtain ⟨amount, rfl⟩ := Int.eq_ofNat_of_zero_le (Int.le_of_lt positive)
  obtain ⟨length, rfl⟩ := Int.eq_ofNat_of_zero_le (Int.le_of_lt positiveToo)
  rw [Int.toNat_natCast] at first second ⊢
  rw [Int.toNat_natCast]
  have quotient : (2 * amount + length) / (2 * length) < 2 ^ 31 := by
    rw [← rounded]
    refine Nat.lt_of_le_of_lt (Nat.le_of_lt_succ (Nat.div_lt_of_lt_mul ?_)) first.2
    have product : amount * 1 ≤ amount * length := Nat.mul_le_mul_left _ (by omega)
    rw [Nat.mul_succ, Nat.mul_comm]
    omega
  rw [cpusFromQuota_eq (by omega) (by omega) (by omega), toInt_of_lt quotient, max_comm]

/-- What is read is the number of CPUs exactly if the conversions leave it alone. -/
theorem reading_iff {v2 : Bool} {quota : Quota} (inRange : quota.InRange model) :
    quota.reading model v2 = some (asLimit quota.cpus) <-> quota.Converts model v2 := by
  cases quota with
  | missing | unlimited rest => exact iff_of_true rfl trivial
  | limited quota period =>
      cases v2 with
      | true =>
          rw [reading_v2 inRange, Option.some.injEq, asLimit_limited, Converts, if_pos rfl]
          generalize (2 * quota + period) / (2 * period) = exact_
          constructor
          · intro same
            have below := toInt_lt exact_
            omega
          · intro small
            rw [toInt_of_lt small, max_comm]
      | false =>
          rw [Converts, if_neg Bool.false_ne_true]
          by_cases positive : 0 < asInt model quota ∧ 0 < asInt model period
          · rw [reading_v1 inRange positive.1 positive.2, Option.some.injEq, cpus, cpus, asLimit_inj]
            exact ⟨fun same => ⟨positive.1, positive.2, same⟩, fun converts => converts.2.2⟩
          · have missed : (limited quota period).reading model false = some (-1) := by
              rw [reading, if_neg Bool.false_ne_true]
              exact if_pos (by omega)
            rw [missed, Option.some.injEq, asLimit_limited]
            exact iff_of_false (by omega) (fun converts => positive ⟨converts.1, converts.2.1⟩)

/-- In range, a number or the sentinel is read. -/
theorem reading_asLimit {v2 : Bool} {quota : Quota} (inRange : quota.InRange model) :
    Exists fun limit => quota.reading model v2 = some (asLimit limit) ∧ forall cpus, limit = some cpus -> 0 < cpus := by
  have missed : Exists fun limit => some (-1) = some (asLimit limit) ∧ forall cpus, limit = some cpus -> 0 < cpus :=
    ⟨none, rfl, nofun⟩
  cases quota with
  | missing | unlimited rest => exact missed
  | limited quota period =>
      have returned : Exists fun number => (limited quota period).reading model v2 = some number := by
        cases v2 with
        | true => exact ⟨_, reading_v2 inRange⟩
        | false =>
            by_cases positive : 0 < asInt model quota ∧ 0 < asInt model period
            · exact ⟨_, reading_v1 inRange positive.1 positive.2⟩
            · refine ⟨-1, ?_⟩
              rw [reading, if_neg Bool.false_ne_true]
              exact if_pos (by omega)
      obtain ⟨number, read⟩ := returned
      have computed := read
      rw [reading] at computed
      have limit : Exists fun limit => number = asLimit limit ∧ forall cpus, limit = some cpus -> 0 < cpus := by
        split at computed
        · exact cpusFromQuota_asLimit computed
        · exact cpusFromQuota_asLimit computed
      obtain ⟨limit, rfl, positive⟩ := limit
      exact ⟨limit, read, positive⟩

/-- Numbers that fit into `int` are converted without loss. -/
theorem converts_of_small (v2 : Bool) (positive : 0 < quota) (positiveToo : 0 < period) (small : quota < 2 ^ 31)
    (smallToo : period < 2 ^ 31) : (limited quota period).Converts model v2 := by
  have kept : forall value, value < 2 ^ 31 -> asInt model value = value := by
    intro value fits
    have least := le_longBits model
    have wide : 2 ^ 31 ≤ 2 ^ (model.longBits - 1) := Nat.pow_le_pow_right (by omega) (by omega)
    rw [asInt, clamp_of_lt (by omega), toInt_of_lt fits]
  cases v2 with
  | true =>
      rw [Converts, if_pos rfl]
      refine Nat.lt_of_le_of_lt (Nat.le_of_lt_succ (Nat.div_lt_of_lt_mul ?_)) small
      have product : quota * 1 ≤ quota * period := Nat.mul_le_mul_left _ (by omega)
      rw [Nat.mul_succ, Nat.mul_assoc, Nat.mul_comm period]
      omega
  | false =>
      rw [Converts, if_neg Bool.false_ne_true, kept quota small, kept period smallToo, Int.toNat_natCast, Int.toNat_natCast]
      exact ⟨by omega, by omega, rfl⟩

end Quota

/-! ## Limits -/

section Limits

variable {found foundToo : Nat -> Prop} {limit limitToo : Int}

theorem IsLimit.congr (isLimit : IsLimit found limit) (same : forall cpus, found cpus <-> foundToo cpus) :
    IsLimit foundToo limit := by
  have equal : found = foundToo := funext (fun cpus => propext (same cpus))
  exact equal ▸ isLimit

theorem isLimit_nothing : IsLimit (fun _ => False) (-1) :=
  Or.inl ⟨rfl, fun _ => id⟩

theorem isLimit_singleton (cpus : Nat) : IsLimit (fun other => other = cpus) cpus :=
  Or.inr ⟨cpus, rfl, rfl, fun _ same => Nat.le_of_eq same.symm⟩

/-- Two limits, either of which may be none at all. -/
theorem IsLimit.combine (isLimit : IsLimit found limit) (isLimitToo : IsLimit foundToo limitToo) :
    IsLimit (fun cpus => found cpus ∨ foundToo cpus) (combineLimits limit limitToo) := by
  rw [combineLimits]
  rcases isLimit with ⟨rfl, none_⟩ | ⟨cpus, here, rfl, least⟩
  · rw [if_pos rfl]
    exact isLimitToo.congr (fun cpus => (or_iff_right (none_ cpus)).symm)
  · rw [if_neg (by omega)]
    rcases isLimitToo with ⟨rfl, none_⟩ | ⟨cpusToo, hereToo, rfl, leastToo⟩
    · rw [if_pos rfl]
      exact Or.inr ⟨cpus, Or.inl here, rfl, fun other =>
        Or.rec (least other) (fun never => absurd never (none_ other))⟩
    · rw [if_neg (by omega)]
      refine Or.inr ⟨min cpus cpusToo, ?_, (Nat.cast_min _ _).symm, ?_⟩
      · rcases Nat.le_total cpus cpusToo with smaller | smaller
        · rw [Nat.min_eq_left smaller]
          exact Or.inl here
        · rw [Nat.min_eq_right smaller]
          exact Or.inr hereToo
      · rintro other (one | one)
        · exact Nat.le_trans (Nat.min_le_left _ _) (least other one)
        · exact Nat.le_trans (Nat.min_le_right _ _) (leastToo other one)

/-- The loop combines in the same way. -/
theorem moreRestrictive_eq (quota : Option Nat) (positive : forall cpus, quota = some cpus -> 0 < cpus) :
    moreRestrictive limit (asLimit quota) = combineLimits limit (asLimit quota) := by
  rw [moreRestrictive, combineLimits]
  cases quota with
  | none =>
      rw [asLimit, if_neg (by omega), if_pos rfl]
      split
      · assumption
      · rfl
  | some cpus =>
      have some_ := positive cpus rfl
      rw [asLimit, if_pos (by omega)]
      split
      · rfl
      · rw [if_neg (by omega)]

/-- A limit is determined by what has been found. -/
theorem IsLimit.unique (isLimit : IsLimit found limit) (isLimitToo : IsLimit found limitToo) : limit = limitToo := by
  rcases isLimit with ⟨rfl, none_⟩ | ⟨cpus, here, rfl, least⟩
  · rcases isLimitToo with ⟨rfl, _⟩ | ⟨cpusToo, hereToo, _⟩
    · rfl
    · exact absurd hereToo (none_ cpusToo)
  · rcases isLimitToo with ⟨_, noneToo⟩ | ⟨cpusToo, hereToo, rfl, leastToo⟩
    · exact absurd here (noneToo cpus)
    · rw [Nat.le_antisymm (least cpusToo hereToo) (leastToo cpus here)]

theorem isLimit_asLimit (quota : Option Nat) : IsLimit (fun cpus => quota = some cpus) (asLimit quota) := by
  cases quota with
  | none => exact isLimit_nothing.congr (fun cpus => iff_of_false id nofun)
  | some cpus => exact (isLimit_singleton cpus).congr (fun other => by rw [Option.some.injEq, eq_comm])

end Limits

/-! ## The branch -/

section Branch

variable {relativePath before rest ancestor text : Bytes}

theorem strrchr_none_iff (wanted : UInt8) : strrchr wanted text = none <-> wanted ∉ text := by
  induction text with
  | nil => exact iff_of_true rfl List.not_mem_nil
  | cons byte bytes inductionHypothesis =>
      rw [strrchr, List.mem_cons, not_or]
      cases last : strrchr wanted bytes with
      | some place =>
          rw [last] at inductionHypothesis
          exact iff_of_false nofun (fun absent => absurd (inductionHypothesis.mpr absent.2) nofun)
      | none =>
          rw [last] at inductionHypothesis
          by_cases here : byte = wanted
          · exact iff_of_false (by rw [if_pos here]; exact nofun) (fun absent => absent.1 here.symm)
          · exact iff_of_true (if_neg here) ⟨Ne.symm here, inductionHypothesis.mp rfl⟩

/-- What stands behind the last separator contains none. -/
theorem strrchr_some {wanted : UInt8} {place : Nat} (last : strrchr wanted text = some place) :
    Exists fun before => Exists fun rest =>
      text = before ++ wanted :: rest ∧ wanted ∉ rest ∧ before.length = place := by
  induction text generalizing place with
  | nil => cases last
  | cons byte bytes inductionHypothesis =>
      rw [strrchr] at last
      cases later : strrchr wanted bytes with
      | some placeToo =>
          rw [later] at last
          obtain ⟨before, rest, rfl, absent, rfl⟩ := inductionHypothesis later
          cases last
          exact ⟨byte :: before, rest, rfl, absent, rfl⟩
      | none =>
          rw [later] at last
          by_cases here : byte = wanted
          · subst here
            change (if byte = byte then some 0 else none) = some place at last
            rw [if_pos rfl] at last
            cases last
            exact ⟨[], bytes, rfl, (strrchr_none_iff byte).mp later, rfl⟩
          · change (if byte = wanted then some 0 else none) = some place at last
            rw [if_neg here] at last
            cases last

/-- The group itself and what is left of its path in front of a separator. -/
def IsAncestor (relativePath ancestor : Bytes) : Prop :=
  ancestor = relativePath ∨ Exists fun rest => relativePath = ancestor ++ slash :: rest

theorem isAncestor_cut (absent : slash ∉ rest) :
    IsAncestor (before ++ slash :: rest) ancestor <->
      ancestor = before ++ slash :: rest ∨ IsAncestor before ancestor := by
  refine or_congr_right ⟨?_, ?_⟩
  · rintro ⟨restToo, same⟩
    rcases List.append_eq_append_iff.mp same with ⟨more, rfl, whole⟩ | ⟨more, rfl, whole⟩
    · cases more with
      | nil => exact Or.inl (List.append_nil _)
      | cons byte bytes =>
          refine absurd ?_ absent
          rw [(List.cons.inj whole).2]
          exact List.mem_append_right _ List.mem_cons_self
    · cases more with
      | nil => exact Or.inl (List.append_nil _).symm
      | cons byte bytes =>
          rw [← (List.cons.inj whole).1]
          exact Or.inr ⟨bytes, rfl⟩
  · rintro (rfl | ⟨restToo, rfl⟩)
    · exact ⟨rest, rfl⟩
    · exact ⟨restToo ++ slash :: rest, by rw [List.append_assoc, List.cons_append]⟩

theorem isAncestor_of_absent (absent : slash ∉ relativePath) : IsAncestor relativePath ancestor <-> ancestor = relativePath := by
  refine or_iff_left ?_
  rintro ⟨rest, rfl⟩
  exact absent (List.mem_append_right _ List.mem_cons_self)

/-- The root is an ancestor of every path that begins with a separator. -/
theorem onBranch_iff (shape : relativePath = [] ∨ relativePath.head? = some slash) :
    OnBranch relativePath ancestor <-> IsAncestor relativePath ancestor := by
  constructor
  · rintro (same | rfl | above)
    · exact Or.inl same
    · rcases shape with rfl | begins
      · exact Or.inl rfl
      · obtain ⟨bytes, rfl⟩ := List.head?_eq_some_iff.mp begins
        exact Or.inr ⟨bytes, rfl⟩
    · exact Or.inr above
  · rintro (same | above)
    · exact Or.inl same
    · exact Or.inr (Or.inr above)

/-- The walk meets every ancestor and ends. -/
theorem scanFrom_isLimit {read : Bytes -> Option Int} {root : Bytes} {quotas : Bytes -> Option Nat}
    (positive : forall ancestor cpus, quotas ancestor = some cpus -> 0 < cpus) {fuel : Nat} {limit : Int}
    {found : Nat -> Prop} (enough : relativePath.length < fuel) (isLimit : IsLimit found limit)
    (reads : forall ancestor, IsAncestor relativePath ancestor ->
      read (root ++ ancestor) = some (asLimit (quotas ancestor))) :
    Exists fun result => scanFrom read root.length fuel (root ++ relativePath) limit = some result ∧
      IsLimit (fun cpus => found cpus ∨
        Exists fun ancestor => IsAncestor relativePath ancestor ∧ quotas ancestor = some cpus) result := by
  induction fuel generalizing relativePath limit found with
  | zero => exact absurd enough (Nat.not_lt_zero _)
  | succ fuel inductionHypothesis =>
      have here := reads relativePath (Or.inl rfl)
      have updated : moreRestrictive limit (asLimit (quotas relativePath)) =
          combineLimits limit (asLimit (quotas relativePath)) := moreRestrictive_eq _ (positive relativePath)
      have combined := isLimit.combine (isLimit_asLimit (quotas relativePath))
      -- The walk ends here when there is no separator left, and also when nothing is left.
      have last : slash ∉ relativePath ->
          IsLimit (fun cpus => found cpus ∨
            Exists fun ancestor => IsAncestor relativePath ancestor ∧ quotas ancestor = some cpus)
            (combineLimits limit (asLimit (quotas relativePath))) := by
        intro absent
        refine combined.congr (fun cpus => or_congr_right ⟨fun own => ⟨relativePath, Or.inl rfl, own⟩, ?_⟩)
        rintro ⟨ancestor, above, own⟩
        rwa [(isAncestor_of_absent absent).mp above] at own
      rw [scanFrom, here]
      change Exists fun result => (if (root ++ relativePath).length ≤ root.length then
        some (moreRestrictive limit (asLimit (quotas relativePath)))
        else match strrchr slash ((root ++ relativePath).drop root.length) with
        | none => some (moreRestrictive limit (asLimit (quotas relativePath)))
        | some place => scanFrom read root.length fuel ((root ++ relativePath).take (root.length + place))
            (moreRestrictive limit (asLimit (quotas relativePath)))) = some result ∧ _
      rw [updated, List.drop_left]
      by_cases atRoot : (root ++ relativePath).length ≤ root.length
      · have nothing : relativePath = [] := by
          rw [List.length_append] at atRoot
          exact List.length_eq_zero_iff.mp (by omega)
        subst nothing
        rw [if_pos atRoot]
        exact ⟨_, rfl, last List.not_mem_nil⟩
      · rw [if_neg atRoot]
        cases separator : strrchr slash relativePath with
        | none => exact ⟨_, rfl, last ((strrchr_none_iff slash).mp separator)⟩
        | some place =>
            obtain ⟨before, rest, rfl, absent, rfl⟩ := strrchr_some separator
            have cut : (root ++ (before ++ slash :: rest)).take (root.length + before.length) = root ++ before := by
              rw [← List.append_assoc, ← List.length_append]
              exact List.take_left
            dsimp only
            rw [cut]
            obtain ⟨result, scanned, isResult⟩ := inductionHypothesis (by
              rw [List.length_append, List.length_cons] at enough
              omega) combined (fun ancestor above => reads ancestor ((isAncestor_cut absent).mpr (Or.inr above)))
            refine ⟨result, scanned, isResult.congr (fun cpus => ?_)⟩
            rw [or_assoc]
            refine or_congr_right ⟨?_, ?_⟩
            · rintro (own | ⟨ancestor, above, own⟩)
              · exact ⟨_, Or.inl rfl, own⟩
              · exact ⟨ancestor, (isAncestor_cut absent).mpr (Or.inr above), own⟩
            · rintro ⟨ancestor, above, own⟩
              rcases (isAncestor_cut absent).mp above with rfl | above
              · exact Or.inl own
              · exact Or.inr ⟨ancestor, above, own⟩

end Branch

/-! ## Both hierarchies -/

section Hierarchies

variable {model : DataModel} {files : Files} {v2 : Bool} {relativePath : Bytes} {quotas : Bytes -> Quota}

/-- The numbers of CPUs along a branch. -/
def BranchCpus (quotas : Bytes -> Quota) (relativePath : Bytes) (cpus : Nat) : Prop :=
  Exists fun ancestor => OnBranch relativePath ancestor ∧ (quotas ancestor).cpus = some cpus

/-- The quotas that the directories of a hierarchy may have: none at all, some
limits, and nothing beyond the range of the rounding sum. -/
structure QuotaSet (model : DataModel) where
  admits : Quota -> Prop
  missing : admits .missing
  limited : Exists fun quota => Exists fun period => admits (.limited quota period)
  inRange : forall quota, admits quota -> quota.InRange model

/-- The quota files of a branch. -/
def BranchDescribed (admitted : QuotaSet model) (files : Files) (v2 : Bool) (quotas : Bytes -> Quota)
    (relativePath : Bytes) : Prop :=
  forall ancestor, OnBranch relativePath ancestor ->
    admitted.admits (quotas ancestor) ∧ Describes files v2 (rootOf v2 ++ ancestor) (quotas ancestor)

/-- The files of all quotas of the set are found, and their numbers survive the conversions. -/
def QuotaSet.Readable (admitted : QuotaSet model) (v2 : Bool) (relativePath : Bytes) : Prop :=
  NamesFit v2 relativePath ∧ forall quota, admitted.admits quota -> quota.Converts model v2

variable {admitted : QuotaSet model}

theorem cpus_pos {quota : Quota} {cpus : Nat} (some_ : quota.cpus = some cpus) : 0 < cpus := by
  cases quota with
  | missing => cases some_
  | unlimited rest => cases some_
  | limited amount period =>
      cases some_
      exact Nat.lt_of_lt_of_le Nat.zero_lt_one (Nat.le_max_left _ _)

theorem rootOf_length (v2 : Bool) : (rootOf v2).length ≤ 18 := by
  cases v2 <;> decide

/-- The buffer of a directory has room for a root and a relative path. -/
theorem dir_fits (v2 : Bool) (short : relativePath.length < pathSize) :
    snprintf (pathSize + (v1Root.length + 1)) (rootOf v2) relativePath = rootOf v2 ++ relativePath := by
  apply snprintf_of_fits
  have root := rootOf_length v2
  have size : v1Root.length = 18 := rfl
  rw [List.length_append]
  omega

theorem scanHierarchy_isLimit {read : Bytes -> Option Nat} (short : relativePath.length < pathSize)
    (shape : relativePath = [] ∨ relativePath.head? = some slash)
    (positive : forall ancestor cpus, read ancestor = some cpus -> 0 < cpus)
    (reads : forall ancestor, IsAncestor relativePath ancestor ->
      readQuota model files v2 (rootOf v2 ++ ancestor) = some (asLimit (read ancestor))) :
    Exists fun limit => scanHierarchy model files v2 relativePath = some limit ∧
      IsLimit (fun cpus => Exists fun ancestor => OnBranch relativePath ancestor ∧ read ancestor = some cpus) limit := by
  obtain ⟨limit, scanned, isLimit⟩ := @scanFrom_isLimit relativePath (readQuota model files v2) (rootOf v2) read positive
    ((rootOf v2 ++ relativePath).length + 1) (-1) _ (by rw [List.length_append]; omega) isLimit_nothing reads
  refine ⟨limit, ?_, isLimit.congr (fun cpus => ?_)⟩
  · rw [scanHierarchy, dir_fits v2 short]
    exact scanned
  · rw [false_or]
    exact exists_congr (fun ancestor => and_congr_left' (onBranch_iff shape).symm)

theorem NamesFit.ancestor (fits : NamesFit v2 relativePath) {ancestor : Bytes} (above : IsAncestor relativePath ancestor) :
    (rootOf v2 ++ ancestor ++ longestName v2).length < pathSize := by
  have shorter : ancestor.length ≤ relativePath.length := by
    rcases above with rfl | ⟨rest, rfl⟩
    · exact Nat.le_refl _
    · rw [List.length_append]
      omega
  rw [NamesFit, List.length_append, List.length_append] at fits
  rw [List.length_append, List.length_append]
  omega

/-- With all names in place the scan finds the most restrictive quota. -/
theorem scanHierarchy_of_readable (short : relativePath.length < pathSize)
    (shape : relativePath = [] ∨ relativePath.head? = some slash) (readable : admitted.Readable v2 relativePath)
    (described : BranchDescribed admitted files v2 quotas relativePath) :
    Exists fun limit => scanHierarchy model files v2 relativePath = some limit ∧
      IsLimit (BranchCpus quotas relativePath) limit := by
  refine scanHierarchy_isLimit short shape (fun _ _ some_ => cpus_pos some_) ?_
  intro ancestor above
  obtain ⟨allowed, content⟩ := described ancestor ((onBranch_iff shape).mpr above)
  have inRange := admitted.inRange _ allowed
  rw [readQuota_eq (readable.1.ancestor above) inRange content]
  exact (Quota.reading_iff inRange).mpr (readable.2 _ allowed)

/-- A quota for the group itself, and none above it. -/
def ownQuota (relativePath : Bytes) (quota : Quota) (ancestor : Bytes) : Quota :=
  if ancestor = relativePath then quota else .missing

theorem ownQuota_self (quota : Quota) : ownQuota relativePath quota relativePath = quota := if_pos rfl

/-- The files of a hierarchy in which only the group itself has a quota. -/
def ownFiles (v2 : Bool) (relativePath : Bytes) (quota : Quota) : Files := fun name =>
  if v2 then
    if name = rootOf true ++ relativePath ++ cpuMax then quota.v2Content else none
  else if name = rootOf false ++ relativePath ++ cfsQuota then quota.v1Content
  else if name = rootOf false ++ relativePath ++ cfsPeriod then quota.v1Period
  else none

/-- The fourth byte from the end tells the file names apart. -/
theorem names_differ {first second : Bytes} (long : 3 < first.length) (longToo : 3 < second.length)
    (differ : first.reverse[3]? ≠ second.reverse[3]?) (dir dirToo : Bytes) : dir ++ first ≠ dirToo ++ second := by
  intro same
  have reversed := congrArg (fun name : Bytes => name.reverse[3]?) same
  rw [List.reverse_append, List.reverse_append, List.getElem?_append_left (by rwa [List.length_reverse]),
    List.getElem?_append_left (by rwa [List.length_reverse])] at reversed
  exact differ reversed

theorem cpuMax_ne_cfsQuota (dir dirToo : Bytes) : dir ++ cpuMax ≠ dirToo ++ cfsQuota :=
  names_differ (by decide) (by decide) (by decide) dir dirToo

theorem cpuMax_ne_cfsPeriod (dir dirToo : Bytes) : dir ++ cpuMax ≠ dirToo ++ cfsPeriod :=
  names_differ (by decide) (by decide) (by decide) dir dirToo

theorem cfsQuota_ne_cfsPeriod (dir dirToo : Bytes) : dir ++ cfsQuota ≠ dirToo ++ cfsPeriod :=
  names_differ (by decide) (by decide) (by decide) dir dirToo

variable {quota : Quota}

/-- The other hierarchy has no files. -/
theorem ownFiles_other (ancestor : Bytes) :
    Describes (ownFiles v2 relativePath quota) (!v2) (rootOf (!v2) ++ ancestor) .missing := by
  cases v2 with
  | true =>
      exact ⟨if_neg (cpuMax_ne_cfsQuota _ _).symm, if_neg (cpuMax_ne_cfsPeriod _ _).symm⟩
  | false =>
      change (if _ = _ then _ else if _ = _ then _ else none) = none
      rw [if_neg (cpuMax_ne_cfsQuota _ _), if_neg (cpuMax_ne_cfsPeriod _ _)]

theorem dir_inj {root first second file : Bytes} : root ++ first ++ file = root ++ second ++ file <-> first = second := by
  rw [List.append_cancel_right_eq, List.append_cancel_left_eq]

theorem ownFiles_own (ancestor : Bytes) :
    Describes (ownFiles v2 relativePath quota) v2 (rootOf v2 ++ ancestor) (ownQuota relativePath quota ancestor) := by
  by_cases own : ancestor = relativePath
  · subst own
    rw [ownQuota_self]
    cases v2 with
    | true =>
        change (if _ = _ then _ else none) = _
        exact if_pos rfl
    | false => exact ⟨if_pos rfl, (if_neg (cfsQuota_ne_cfsPeriod _ _).symm).trans (if_pos rfl)⟩
  · have missing : ownQuota relativePath quota ancestor = .missing := if_neg own
    rw [missing]
    cases v2 with
    | true => exact if_neg (fun same => own (dir_inj.mp same))
    | false =>
        constructor
        · exact (if_neg (fun same => own (dir_inj.mp same))).trans (if_neg (cfsQuota_ne_cfsPeriod _ _))
        · exact (if_neg (cfsQuota_ne_cfsPeriod _ _).symm).trans (if_neg (fun same => own (dir_inj.mp same)))

theorem ownFiles_described (allowed : admitted.admits quota) :
    BranchDescribed admitted (ownFiles v2 relativePath quota) v2 (ownQuota relativePath quota) relativePath := by
  intro ancestor _
  refine ⟨?_, ownFiles_own ancestor⟩
  rw [ownQuota]
  split
  · exact allowed
  · exact admitted.missing

theorem ownFiles_describes_other (otherPath : Bytes) :
    BranchDescribed admitted (ownFiles v2 relativePath quota) (!v2) (fun _ => .missing) otherPath :=
  fun ancestor _ => ⟨admitted.missing, ownFiles_other ancestor⟩

/-- The only quota of the branch is the one of the group. -/
theorem branchCpus_own {cpus : Nat} : BranchCpus (ownQuota relativePath quota) relativePath cpus <-> quota.cpus = some cpus := by
  constructor
  · rintro ⟨ancestor, _, some_⟩
    rw [ownQuota] at some_
    split at some_
    · exact some_
    · cases some_
  · intro some_
    refine ⟨relativePath, Or.inl rfl, ?_⟩
    rw [ownQuota_self]
    exact some_

theorem snprintf_length (first second : Bytes) : (snprintf pathSize first second).length < pathSize := by
  rw [snprintf, List.length_take]
  have positive : 0 < pathSize := by decide
  omega

/-- A name that does not fit is not read. -/
theorem ne_of_long {name : Bytes} (long : pathSize ≤ name.length) (first second : Bytes) :
    snprintf pathSize first second ≠ name := by
  intro same
  have short := snprintf_length first second
  rw [same] at short
  omega

/-- The quota of a group with too long a name is missed. -/
theorem readQuota_of_unfit (unfit : ¬NamesFit v2 relativePath) {ancestor : Bytes} (above : IsAncestor relativePath ancestor) :
    readQuota model (ownFiles v2 relativePath quota) v2 (rootOf v2 ++ ancestor) = some (-1) := by
  have long := Nat.not_lt.mp unfit
  cases v2 with
  | true =>
      have absent : ownFiles true relativePath quota (snprintf pathSize (rootOf true ++ ancestor) cpuMax) = none :=
        if_neg (ne_of_long long _ _)
      change readQuotaV2 model _ _ = _
      rw [readQuotaV2, readText_none 128 absent]
  | false =>
      have nowhere : forall name, name ≠ rootOf false ++ relativePath ++ cfsQuota ->
          name ≠ rootOf false ++ relativePath ++ cfsPeriod -> readInt model (ownFiles false relativePath quota) name = -1 := by
        intro name notQuota notPeriod
        have absent : ownFiles false relativePath quota name = none := (if_neg notQuota).trans (if_neg notPeriod)
        rw [readInt, readText_none 64 absent]
      change readQuotaV1 model _ _ = _
      rw [readQuotaV1]
      rcases above with rfl | ⟨rest, rfl⟩
      · -- The name of the period file is cut, and is not the one of the quota file either.
        have missing := nowhere (snprintf pathSize (rootOf false ++ ancestor) cfsPeriod) (by
          intro same
          have cut : snprintf pathSize (rootOf false ++ ancestor) cfsPeriod <+: rootOf false ++ ancestor ++ cfsPeriod :=
            List.take_prefix _ _
          rw [same] at cut
          exact absurd ((List.prefix_append_right_inj _).mp cut) (by decide)) (ne_of_long long _ _)
        rw [missing]
        exact if_pos (Or.inr (by decide))
      · have missing := nowhere (snprintf pathSize (rootOf false ++ ancestor) cfsQuota) (by
          intro same
          have lengths := congrArg List.length same
          rw [snprintf, List.length_take] at lengths
          simp only [List.length_append, List.length_cons] at lengths
          omega) (ne_of_long long _ _)
        rw [missing]
        exact if_pos (Or.inl (by decide))

/-- What is read for the only quota is what the scan returns. -/
theorem scan_own (short : relativePath.length < pathSize) (shape : relativePath = [] ∨ relativePath.head? = some slash)
    {read : Option Nat} (positive : forall cpus, read = some cpus -> 0 < cpus)
    (own : readQuota model (ownFiles v2 relativePath quota) v2 (rootOf v2 ++ relativePath) = some (asLimit read))
    (others : forall ancestor, IsAncestor relativePath ancestor -> ancestor ≠ relativePath ->
      readQuota model (ownFiles v2 relativePath quota) v2 (rootOf v2 ++ ancestor) = some (-1)) :
    scanHierarchy model (ownFiles v2 relativePath quota) v2 relativePath = some (asLimit read) := by
  obtain ⟨limit, scanned, isLimit⟩ := @scanHierarchy_isLimit model (ownFiles v2 relativePath quota) v2 relativePath
    (fun ancestor => if ancestor = relativePath then read else none) short shape (by
      intro ancestor cpus some_
      split at some_
      · exact positive cpus some_
      · cases some_) (by
      intro ancestor above
      by_cases same : ancestor = relativePath
      · rw [if_pos same, same]
        exact own
      · rw [if_neg same]
        exact others ancestor above same)
  rw [scanned, isLimit.unique ((isLimit_asLimit read).congr (fun cpus => ⟨fun some_ => ?_, ?_⟩))]
  · exact ⟨relativePath, Or.inl rfl, by rw [if_pos rfl]; exact some_⟩
  · rintro ⟨ancestor, _, some_⟩
    split at some_
    · exact some_
    · cases some_

/-- With a name that does not fit, the quota is missed. -/
theorem scan_own_of_unfit (short : relativePath.length < pathSize)
    (shape : relativePath = [] ∨ relativePath.head? = some slash) (unfit : ¬NamesFit v2 relativePath) :
    scanHierarchy model (ownFiles v2 relativePath quota) v2 relativePath = some (-1) :=
  @scan_own model v2 relativePath quota short shape none nofun (readQuota_of_unfit unfit (Or.inl rfl))
    (fun _ above _ => readQuota_of_unfit unfit above)

/-- With names that fit, the scan returns what the conversions have left of the quota. -/
theorem scan_own_of_fits (short : relativePath.length < pathSize)
    (shape : relativePath = [] ∨ relativePath.head? = some slash) (fits : NamesFit v2 relativePath)
    (inRange : quota.InRange model) :
    scanHierarchy model (ownFiles v2 relativePath quota) v2 relativePath = quota.reading model v2 := by
  obtain ⟨read, readIs, positive⟩ := @Quota.reading_asLimit model v2 quota inRange
  rw [readIs]
  refine scan_own short shape positive ?_ ?_
  · have here := @ownFiles_own v2 relativePath quota relativePath
    rw [ownQuota_self] at here
    rw [readQuota_eq (fits.ancestor (Or.inl rfl)) inRange here, readIs]
  · intro ancestor above other
    have missing := @ownFiles_own v2 relativePath quota ancestor
    rw [ownQuota, if_neg other] at missing
    exact @readQuota_eq model _ v2 _ .missing (fits.ancestor above) trivial missing

/-- A scan that finds the only quota needs it to be readable. -/
theorem readable_of_finds (short : relativePath.length < pathSize)
    (shape : relativePath = [] ∨ relativePath.head? = some slash)
    (finds : forall quota, admitted.admits quota -> Exists fun limit =>
      scanHierarchy model (ownFiles v2 relativePath quota) v2 relativePath = some limit ∧
        IsLimit (BranchCpus (ownQuota relativePath quota) relativePath) limit) : admitted.Readable v2 relativePath := by
  have found : forall quota, admitted.admits quota ->
      scanHierarchy model (ownFiles v2 relativePath quota) v2 relativePath = some (asLimit quota.cpus) := by
    intro quota allowed
    obtain ⟨limit, scanned, isLimit⟩ := finds quota allowed
    rw [scanned, isLimit.unique ((isLimit_asLimit quota.cpus).congr (fun cpus => branchCpus_own.symm))]
  have fits : NamesFit v2 relativePath := by
    by_contra unfit
    obtain ⟨amount, period, allowed⟩ := admitted.limited
    have same := found _ allowed
    rw [scan_own_of_unfit short shape unfit, Option.some.injEq, Quota.asLimit_limited] at same
    omega
  refine ⟨fits, fun quota allowed => ?_⟩
  have inRange := admitted.inRange quota allowed
  rw [← Quota.reading_iff inRange, ← scan_own_of_fits short shape fits inRange]
  exact found quota allowed

/-- The control group of the process, as `/proc/self/cgroup` has it. -/
def ProcessIn (files : Files) (v2 : Bool) (relativePath : Bytes) : Prop :=
  0 ∉ (readText files procSelfCgroup 1024).getD [] ∧ Exists fun path =>
    Extracts v2 (((readText files procSelfCgroup 1024).getD []).splitOn newline) path ∧
      relativePath = rootless ((path.getD []).take (pathSize - 1))

/--
Both hierarchies are scanned to the end, each scan finds the most restrictive
quota of its branch, and `get_docker_limit` returns the smaller one of the two
results.
-/
def FindsLimits (model : DataModel) (admitted : Bool -> QuotaSet model) (v2Path v1Path : Bytes) : Prop :=
  forall (files : Files) (v2Quotas v1Quotas : Bytes -> Quota),
    BranchDescribed (admitted true) files true v2Quotas v2Path ->
    BranchDescribed (admitted false) files false v1Quotas v1Path ->
    Exists fun v2Limit => Exists fun v1Limit =>
      scanHierarchy model files true v2Path = some v2Limit ∧ scanHierarchy model files false v1Path = some v1Limit ∧
      IsLimit (BranchCpus v2Quotas v2Path) v2Limit ∧ IsLimit (BranchCpus v1Quotas v1Path) v1Limit ∧
      IsLimit (fun cpus => BranchCpus v2Quotas v2Path cpus ∨ BranchCpus v1Quotas v1Path cpus)
        (combineLimits v2Limit v1Limit) ∧
      forall buffer : Bytes, buffer.length = pathSize -> ProcessIn files true v2Path -> ProcessIn files false v1Path ->
        getDockerLimit model files buffer = some (combineLimits v2Limit v1Limit)

/-- The paths that are scanned are those of the grammar, cut to the buffer. -/
theorem getDockerLimit_eq (model : DataModel) (files : Files) {procSelf buffer : Bytes}
    (content : (readText files procSelfCgroup 1024).getD [] = procSelf) (noNul : 0 ∉ procSelf)
    (size : buffer.length = pathSize) :
    Exists fun v2Path => Exists fun v1Path =>
      Extracts true (procSelf.splitOn newline) v2Path ∧ Extracts false (procSelf.splitOn newline) v1Path ∧
      getDockerLimit model files buffer =
        (scanHierarchy model files true (rootless ((v2Path.getD []).take (pathSize - 1)))).bind (fun v2Limit =>
          (scanHierarchy model files false (rootless ((v1Path.getD []).take (pathSize - 1)))).bind (fun v1Limit =>
            some (combineLimits v2Limit v1Limit))) := by
  have room : 1 < buffer.length := by
    rw [size]
    decide
  obtain ⟨v2Buffer, v2Path, v2Found, v2Extracts, v2Size, v2Holds⟩ := @selfCgroup_finds true buffer procSelf noNul room
  obtain ⟨v1Buffer, v1Path, v1Found, v1Extracts, v1Size, v1Holds⟩ :=
    @selfCgroup_finds false v2Buffer procSelf noNul (by rw [v2Size]; exact room)
  refine ⟨v2Path, v1Path, v2Extracts, v1Extracts, ?_⟩
  rw [size] at v2Holds
  rw [v2Size, size] at v1Holds
  simp only [getDockerLimit, content, v2Found, v1Found, v2Holds, v1Holds, Option.bind_eq_bind, Option.bind_some]

/-- The results of the two scans are combined. -/
theorem getDockerLimit_of_process {v2Path v1Path buffer : Bytes} (size : buffer.length = pathSize)
    (v2Process : ProcessIn files true v2Path) (v1Process : ProcessIn files false v1Path) {v2Limit v1Limit : Int}
    (v2Scanned : scanHierarchy model files true v2Path = some v2Limit)
    (v1Scanned : scanHierarchy model files false v1Path = some v1Limit) :
    getDockerLimit model files buffer = some (combineLimits v2Limit v1Limit) := by
  obtain ⟨noNul, v2Field, v2Extracts, rfl⟩ := v2Process
  obtain ⟨_, v1Field, v1Extracts, rfl⟩ := v1Process
  obtain ⟨v2FieldToo, v1FieldToo, v2ExtractsToo, v1ExtractsToo, returned⟩ := getDockerLimit_eq model files rfl noNul size
  rw [returned, v2Extracts.unique v2ExtractsToo, v1Extracts.unique v1ExtractsToo, v2Scanned, Option.bind_some, v1Scanned,
    Option.bind_some]

/--
The most restrictive quota is found, whatever quotas of the two sets there are,
if and only if the names of the quota files fit into their buffer and the
conversions to `int` leave the numbers of CPUs as they are.
-/
theorem quota_scan_iff (model : DataModel) (admitted : Bool -> QuotaSet model) (v2Path v1Path : Bytes)
    (v2Short : v2Path.length < pathSize) (v1Short : v1Path.length < pathSize)
    (v2Shape : v2Path = [] ∨ v2Path.head? = some slash) (v1Shape : v1Path = [] ∨ v1Path.head? = some slash) :
    FindsLimits model admitted v2Path v1Path <->
      (admitted true).Readable true v2Path ∧ (admitted false).Readable false v1Path := by
  constructor
  · intro finds
    constructor
    · refine readable_of_finds v2Short v2Shape (fun quota allowed => ?_)
      obtain ⟨limit, _, scanned, _, isLimit, _⟩ := finds (ownFiles true v2Path quota) _ _ (ownFiles_described allowed)
        (ownFiles_describes_other v1Path)
      exact ⟨limit, scanned, isLimit⟩
    · refine readable_of_finds v1Short v1Shape (fun quota allowed => ?_)
      obtain ⟨_, limit, _, scanned, _, isLimit, _⟩ := finds (ownFiles false v1Path quota) _ _
        (ownFiles_describes_other v2Path) (ownFiles_described allowed)
      exact ⟨limit, scanned, isLimit⟩
  · rintro ⟨v2Readable, v1Readable⟩ files v2Quotas v1Quotas v2Described v1Described
    obtain ⟨v2Limit, v2Scanned, v2IsLimit⟩ := scanHierarchy_of_readable v2Short v2Shape v2Readable v2Described
    obtain ⟨v1Limit, v1Scanned, v1IsLimit⟩ := scanHierarchy_of_readable v1Short v1Shape v1Readable v1Described
    exact ⟨v2Limit, v1Limit, v2Scanned, v1Scanned, v2IsLimit, v1IsLimit, v2IsLimit.combine v1IsLimit,
      fun _ size v2Process v1Process => getDockerLimit_of_process size v2Process v1Process v2Scanned v1Scanned⟩

/-- Quotas of at most ten CPUs, in units of a tenth of a second. -/
def tenths : QuotaSet .lp64 where
  admits
    | .missing | .unlimited _ => True
    | .limited quota period => 0 < quota ∧ quota ≤ 1000000 ∧ period = 100000
  missing := trivial
  limited := ⟨100000, 100000, by decide⟩
  inRange := by
    intro quota allowed
    cases quota with
    | missing | unlimited rest => trivial
    | limited quota period =>
        obtain ⟨positive, bounded, rfl⟩ := allowed
        have range : 2 ^ (DataModel.lp64.longBits - 1) = 2 ^ 63 := rfl
        exact ⟨positive, by decide, by omega⟩

theorem tenths_converts (v2 : Bool) {quota : Quota} (allowed : tenths.admits quota) : quota.Converts .lp64 v2 := by
  cases quota with
  | missing | unlimited rest => trivial
  | limited quota period =>
      obtain ⟨positive, bounded, rfl⟩ := allowed
      exact Quota.converts_of_small v2 positive (by decide) (by omega) (by decide)

/-- "/a" in one hierarchy and the root in the other. -/
theorem quota_scan_shallow : FindsLimits .lp64 (fun _ => tenths) [47, 97] [] :=
  (quota_scan_iff .lp64 (fun _ => tenths) [47, 97] [] (by decide) (by decide) (Or.inr rfl) (Or.inl rfl)).mpr
    ⟨⟨by unfold NamesFit; decide, fun _ => tenths_converts true⟩, ⟨by unfold NamesFit; decide, fun _ => tenths_converts false⟩⟩

/-- A group with a name of 490 bytes. -/
def deepGroup : Bytes := slash :: List.replicate 489 97

/-- Its quota of one CPU is taken for none.  And a quota of `2 ^ 32` CPUs, in the
root, is taken for one of a single CPU. -/
theorem deepGroup_limit_missed :
    deepGroup.length = 490 ∧ tenths.admits (.limited 100000 100000) ∧
      scanHierarchy .lp64 (ownFiles true deepGroup (.limited 100000 100000)) true deepGroup = some (-1) ∧
      ¬FindsLimits .lp64 (fun _ => tenths) deepGroup [] ∧
      (Quota.limited 4294967296 1).InRange .lp64 ∧ (Quota.limited 4294967296 1).cpus = some 4294967296 ∧
      scanHierarchy .lp64 (ownFiles true [] (.limited 4294967296 1)) true [] = some 1 := by
  have length : deepGroup.length = 490 := by
    rw [deepGroup, List.length_cons, List.length_replicate]
  have unfit : ¬NamesFit true deepGroup := by
    rw [NamesFit, List.length_append, List.length_append, length]
    decide
  have short : deepGroup.length < pathSize := by
    rw [length]
    decide
  have inRange : (Quota.limited 4294967296 1).InRange .lp64 := by
    change 0 < 4294967296 ∧ 0 < 1 ∧ 4294967296 + 1 / 2 < 2 ^ 63
    decide
  have allowed : tenths.admits (.limited 100000 100000) := ⟨by decide, by decide, rfl⟩
  have missed : scanHierarchy .lp64 (ownFiles true deepGroup (.limited 100000 100000)) true deepGroup = some (-1) :=
    scan_own_of_unfit short (Or.inr rfl) unfit
  refine ⟨length, allowed, missed, ?_, inRange, by decide, ?_⟩
  · intro finds
    obtain ⟨limit, _, scanned, _, isLimit, _⟩ := finds (ownFiles true deepGroup (.limited 100000 100000)) _ _
      (ownFiles_described allowed) (ownFiles_describes_other [])
    rw [missed] at scanned
    have one := isLimit.unique ((isLimit_asLimit (Quota.limited 100000 100000).cpus).congr
      (fun cpus => branchCpus_own.symm))
    rw [← Option.some.inj scanned] at one
    exact absurd one (by decide)
  · rw [scan_own_of_fits (by decide) (Or.inl rfl) (by unfold NamesFit; decide) inRange, Quota.reading_v2 inRange]
    rfl

end Hierarchies

end Cgroup

end Threading
end Sweater
