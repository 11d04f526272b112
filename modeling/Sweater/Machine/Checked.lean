import Sweater.Machine.Words

namespace Sweater
namespace Machine

universe u

/-!
# Fixed-width computations that remember whether they were exact

A `Checked` computation works on machine words and wraps exactly as they do.
Along with its value it carries a bit that says whether every intermediate
value was the exact one.  It has no result at all when an assumption of the
program is violated, when it divides by zero, or when a loop goes on for more
rounds than its fuel.

`Returns` is total correctness: there is a result, it is exact, and it has the
stated property.  There is one rule for each construct.
-/

/-- A value together with the bit "nothing has wrapped", or no result. -/
def Checked (α : Type u) : Type u := Option (α × Bool)

instance {α : Type u} [DecidableEq α] : DecidableEq (Checked α) :=
  inferInstanceAs (DecidableEq (Option (α × Bool)))

namespace Checked

variable {α β : Type u} {width : Nat}

instance : Monad Checked where
  pure value := some (value, true)
  bind first rest :=
    match first with
    | none => none
    | some (value, exact) =>
        match rest value with
        | none => none
        | some (result, exactToo) => some (result, exact && exactToo)

/-- An assumption of the program; there is no result without it. -/
def assume (holds : Prop) [Decidable holds] : Checked Unit :=
  if holds then some ((), true) else none

def add (left right : BitVec width) : Checked (BitVec width) :=
  some (left + right, decide (left.toNat + right.toNat < 2 ^ width))

def sub (left right : BitVec width) : Checked (BitVec width) :=
  some (left - right, decide (right.toNat ≤ left.toNat))

def mul (left right : BitVec width) : Checked (BitVec width) :=
  some (left * right, decide (left.toNat * right.toNat < 2 ^ width))

def div (left right : BitVec width) : Checked (BitVec width) :=
  if right = 0 then none else some (left / right, true)

def rem (left right : BitVec width) : Checked (BitVec width) :=
  if right = 0 then none else some (left % right, true)

/-- A conversion to another unsigned type. -/
def narrow (target : Nat) (word : BitVec width) : Checked (BitVec target) :=
  some (word.setWidth target, decide (word.toNat < 2 ^ target))

/-- The range of `int`. -/
def FitsInt (value : Int) : Prop := -2 ^ 31 ≤ value ∧ value < 2 ^ 31

instance (value : Int) : Decidable (FitsInt value) := inferInstanceAs (Decidable (_ ∧ _))

def addInt (left right : Int) : Checked Int := some (left + right, decide (FitsInt (left + right)))

def subInt (left right : Int) : Checked Int := some (left - right, decide (FitsInt (left - right)))

def mulInt (left right : Int) : Checked Int := some (left * right, decide (FitsInt (left * right)))

/-- A conversion from `int` to an unsigned type. -/
def narrowInt (target : Nat) (value : Int) : Checked (BitVec target) :=
  some (BitVec.ofInt target value, decide (0 ≤ value ∧ value < 2 ^ target))

/-- `while ( guard ) body`, for at most `fuel` evaluations of the guard. -/
def loop (guard : α -> Bool) (body : α -> Checked α) : Nat -> α -> Checked α
  | 0, _ => none
  | fuel + 1, state => if guard state then body state >>= loop guard body fuel else pure state

theorem pure_bind (value : α) (rest : α -> Checked β) : (pure value >>= rest) = rest value := by
  change (match rest value with
    | none => none
    | some (result, exact) => some (result, true && exact)) = rest value
  cases rest value with
  | none => rfl
  | some result => rfl

theorem bind_assoc {γ : Type u} (first : Checked α) (second : α -> Checked β) (third : β -> Checked γ) :
    (first >>= second >>= third) = (first >>= fun value => second value >>= third) := by
  cases first with
  | none => rfl
  | some value =>
      change (match (match second value.1 with
          | none => (none : Checked β)
          | some (result, exact) => some (result, value.2 && exact)) with
        | none => none
        | some (result, exact) => match third result with
          | none => none
          | some (last, exactToo) => some (last, exact && exactToo)) =
        match (match second value.1 with
          | none => (none : Checked γ)
          | some (result, exact) => match third result with
            | none => none
            | some (last, exactToo) => some (last, exact && exactToo)) with
        | none => none
        | some (result, exact) => some (result, value.2 && exact)
      cases second value.1 with
      | none => rfl
      | some result =>
          dsimp only
          cases third result.1 with
          | none => rfl
          | some last =>
              dsimp only
              rw [Bool.and_assoc]

/-! ## Total correctness -/

/-- There is a result, no value on the way has wrapped, and `post` holds. -/
def Returns (computation : Checked α) (post : α -> Prop) : Prop :=
  Exists fun value => computation = some (value, true) ∧ post value

theorem returns_pure {value : α} {post : α -> Prop} (holds : post value) :
    Returns (pure value) post := ⟨value, rfl, holds⟩

theorem returns_bind {first : Checked α} {rest : α -> Checked β} {middle : α -> Prop} {post : β -> Prop}
    (before : Returns first middle) (after : forall value, middle value -> Returns (rest value) post) :
    Returns (first >>= rest) post := by
  rcases before with ⟨value, same, holds⟩
  rcases after value holds with ⟨result, sameToo, holdsToo⟩
  refine ⟨result, ?_, holdsToo⟩
  subst same
  change (match rest value with
    | none => none
    | some (result, exactToo) => some (result, true && exactToo)) = _
  rw [sameToo]
  rfl

theorem Returns.mono {computation : Checked α} {post weaker : α -> Prop}
    (returns : Returns computation post) (implied : forall value, post value -> weaker value) :
    Returns computation weaker := by
  rcases returns with ⟨value, same, holds⟩
  exact ⟨value, same, implied value holds⟩

theorem returns_assume {holds : Prop} [Decidable holds] (given : holds) :
    Returns (assume holds) (fun _ => holds) := ⟨(), if_pos given, given⟩

theorem returns_add (left right : BitVec width) (room : left.toNat + right.toNat < 2 ^ width) :
    Returns (add left right) (fun sum => sum.toNat = left.toNat + right.toNat) := by
  refine ⟨left + right, ?_, ?_⟩
  · rw [add, decide_eq_true room]
  · exact (BitVec.toNat_add _ _).trans (Nat.mod_eq_of_lt room)

/-- `++word` -/
theorem returns_increment (word : BitVec width) (room : word.toNat + 1 < 2 ^ width) :
    Returns (add word 1) (fun next => next.toNat = word.toNat + 1) := by
  have oneIs : (1 : BitVec width).toNat = 1 := by
    have nonzero : width ≠ 0 := by
      rintro rfl
      rw [Nat.pow_zero] at room
      omega
    simp [Nat.pos_of_ne_zero nonzero]
  refine ⟨word + 1, ?_, Machine.toNat_add_one word room⟩
  rw [add, oneIs, decide_eq_true room]

theorem returns_sub (left right : BitVec width) (enough : right.toNat ≤ left.toNat) :
    Returns (sub left right) (fun difference => difference.toNat = left.toNat - right.toNat) := by
  refine ⟨left - right, ?_, ?_⟩
  · rw [sub, decide_eq_true enough]
  · exact BitVec.toNat_sub_of_le (BitVec.le_def.mpr enough)

theorem returns_mul (left right : BitVec width) (room : left.toNat * right.toNat < 2 ^ width) :
    Returns (mul left right) (fun product => product.toNat = left.toNat * right.toNat) := by
  refine ⟨left * right, ?_, ?_⟩
  · rw [mul, decide_eq_true room]
  · exact (BitVec.toNat_mul _ _).trans (Nat.mod_eq_of_lt room)

theorem returns_div (left right : BitVec width) (nonzero : 0 < right.toNat) :
    Returns (div left right) (fun quotient => quotient.toNat = left.toNat / right.toNat) := by
  have different : right ≠ 0 := by
    rintro rfl
    exact absurd nonzero (by simp)
  exact ⟨left / right, if_neg different, BitVec.toNat_udiv⟩

theorem returns_rem (left right : BitVec width) (nonzero : 0 < right.toNat) :
    Returns (rem left right) (fun remainder => remainder.toNat = left.toNat % right.toNat) := by
  have different : right ≠ 0 := by
    rintro rfl
    exact absurd nonzero (by simp)
  exact ⟨left % right, if_neg different, BitVec.toNat_umod⟩

theorem returns_narrow (target : Nat) (word : BitVec width) (room : word.toNat < 2 ^ target) :
    Returns (narrow target word) (fun result => result.toNat = word.toNat) := by
  refine ⟨word.setWidth target, ?_, ?_⟩
  · rw [narrow, decide_eq_true room]
  · exact (BitVec.toNat_setWidth _ _).trans (Nat.mod_eq_of_lt room)

theorem returns_addInt (left right : Int) (room : FitsInt (left + right)) :
    Returns (addInt left right) (fun sum => sum = left + right) :=
  ⟨left + right, by rw [addInt, decide_eq_true room], rfl⟩

theorem returns_subInt (left right : Int) (room : FitsInt (left - right)) :
    Returns (subInt left right) (fun difference => difference = left - right) :=
  ⟨left - right, by rw [subInt, decide_eq_true room], rfl⟩

theorem returns_mulInt (left right : Int) (room : FitsInt (left * right)) :
    Returns (mulInt left right) (fun product => product = left * right) :=
  ⟨left * right, by rw [mulInt, decide_eq_true room], rfl⟩

theorem returns_narrowInt (target : Nat) (value : Int) (low : 0 ≤ value) (high : value < 2 ^ target) :
    Returns (narrowInt target value) (fun result => (result.toNat : Int) = value) := by
  refine ⟨BitVec.ofInt target value, ?_, ?_⟩
  · rw [narrowInt, decide_eq_true ⟨low, high⟩]
  · have bound : value < ((2 ^ target : Nat) : Int) := by
      rw [Nat.cast_pow]
      exact high
    change ((BitVec.ofInt target value).toNat : Int) = value
    rw [BitVec.toNat_ofInt, Int.emod_eq_of_lt low bound, Int.toNat_of_nonneg low]

/-- The invariant rule for loops: every round keeps the invariant and
decreases the measure, which the fuel exceeds. -/
theorem returns_loop (guard : α -> Bool) {body : α -> Checked α} (invariant : α -> Prop)
    (measure : α -> Nat)
    (round : forall state, invariant state -> guard state = true ->
      Returns (body state) (fun next => invariant next ∧ measure next < measure state))
    (fuel : Nat) (state : α) (start : invariant state) (enough : measure state < fuel) :
    Returns (loop guard body fuel state) (fun final => invariant final ∧ guard final = false) := by
  induction fuel generalizing state with
  | zero => exact absurd enough (Nat.not_lt_zero _)
  | succ fuel inductionHypothesis =>
      rw [loop]
      by_cases more : guard state = true
      · rw [if_pos more]
        apply returns_bind (round state start more)
        intro next holds
        exact inductionHypothesis next holds.1 (by omega)
      · rw [if_neg more]
        exact returns_pure ⟨start, Bool.eq_false_of_not_eq_true more⟩

/-! ## Results that may have wrapped -/

/-- There is a result, whether a value on the way has wrapped or not, and
`post` holds. -/
def Yields (computation : Checked α) (post : α -> Prop) : Prop :=
  Exists fun value => Exists fun exact => computation = some (value, exact) ∧ post value

theorem Returns.yields {computation : Checked α} {post : α -> Prop} (returns : Returns computation post) :
    Yields computation post := by
  rcases returns with ⟨value, same, holds⟩
  exact ⟨value, true, same, holds⟩

theorem yields_bind {first : Checked α} {rest : α -> Checked β} {middle : α -> Prop} {post : β -> Prop}
    (before : Yields first middle) (after : forall value, middle value -> Yields (rest value) post) :
    Yields (first >>= rest) post := by
  rcases before with ⟨value, exact, same, holds⟩
  rcases after value holds with ⟨result, exactToo, sameToo, holdsToo⟩
  refine ⟨result, exact && exactToo, ?_, holdsToo⟩
  subst same
  change (match rest value with
    | none => none
    | some (result, exactToo) => some (result, exact && exactToo)) = _
  rw [sameToo]

/-- A sum, whether it wraps or not. -/
theorem yields_add (left right : BitVec width) : Yields (add left right) (fun sum => sum = left + right) :=
  ⟨left + right, _, rfl, rfl⟩

/-- A product, whether it wraps or not. -/
theorem yields_mul (left right : BitVec width) : Yields (mul left right) (fun product => product = left * right) :=
  ⟨left * right, _, rfl, rfl⟩

/-- The invariant rule for loops whose rounds may wrap. -/
theorem yields_loop (guard : α -> Bool) {body : α -> Checked α} (invariant : α -> Prop)
    (measure : α -> Nat)
    (round : forall state, invariant state -> guard state = true ->
      Yields (body state) (fun next => invariant next ∧ measure next < measure state))
    (fuel : Nat) (state : α) (start : invariant state) (enough : measure state < fuel) :
    Yields (loop guard body fuel state) (fun final => invariant final ∧ guard final = false) := by
  induction fuel generalizing state with
  | zero => exact absurd enough (Nat.not_lt_zero _)
  | succ fuel inductionHypothesis =>
      rw [loop]
      by_cases more : guard state = true
      · rw [if_pos more]
        apply yields_bind (round state start more)
        intro next holds
        exact inductionHypothesis next holds.1 (by omega)
      · rw [if_neg more]
        exact (returns_pure ⟨start, Bool.eq_false_of_not_eq_true more⟩).yields

/-- A conversion drops what does not fit. -/
theorem yields_narrowInt (target : Nat) (value : Nat) :
    Yields (narrowInt target value) (fun result => result.toNat = value % 2 ^ target) := by
  refine ⟨BitVec.ofInt target value, _, rfl, ?_⟩
  rw [BitVec.ofInt_natCast]
  exact BitVec.toNat_ofNat _ _

/-! ## Partial correctness -/

/-- Whatever result there is has the stated property. -/
def Ensures (computation : Checked α) (post : α -> Prop) : Prop :=
  forall value exact, computation = some (value, exact) -> post value

theorem ensures_pure {value : α} {post : α -> Prop} (holds : post value) : Ensures (pure value) post := by
  intro result exact same
  cases same
  exact holds

theorem ensures_bind {first : Checked α} {rest : α -> Checked β} {middle : α -> Prop} {post : β -> Prop}
    (before : Ensures first middle) (after : forall value, middle value -> Ensures (rest value) post) :
    Ensures (first >>= rest) post := by
  intro result exact same
  change (match first with
    | none => none
    | some (value, exact) => match rest value with
      | none => none
      | some (result, exactToo) => some (result, exact && exactToo)) = _ at same
  cases firstIs : first with
  | none =>
      rw [firstIs] at same
      cases same
  | some value =>
      rw [firstIs] at same
      dsimp only at same
      cases restIs : rest value.1 with
      | none =>
          rw [restIs] at same
          cases same
      | some last =>
          rw [restIs] at same
          cases same
          exact after value.1 (before value.1 value.2 firstIs) last.1 last.2 restIs

/-- Nothing has to be known about a step. -/
theorem ensures_true (computation : Checked α) : Ensures computation (fun _ => True) :=
  fun _ _ _ => trivial

theorem ensures_assume (holds : Prop) [Decidable holds] : Ensures (assume holds) (fun _ => holds) := by
  intro _ exact same
  by_cases given : holds
  · exact given
  · have absent : assume holds = none := if_neg given
    rw [absent] at same
    cases same

/-- There is only one result. -/
theorem Yields.ensures {computation : Checked α} {post : α -> Prop} (yields : Yields computation post) :
    Ensures computation post := by
  intro value exact same
  obtain ⟨result, exactToo, resultIs, holds⟩ := yields
  rw [resultIs] at same
  cases same
  exact holds

theorem Returns.ensures {computation : Checked α} {post : α -> Prop} (returns : Returns computation post) :
    Ensures computation post :=
  returns.yields.ensures

/-- What every result satisfies, the one that there is satisfies too. -/
theorem Yields.and_ensures {computation : Checked α} {post also : α -> Prop} (yields : Yields computation post)
    (ensures : Ensures computation also) : Exists fun value => post value ∧ also value := by
  obtain ⟨value, exact, same, holds⟩ := yields
  exact ⟨value, holds, ensures value exact same⟩

theorem ensures_add (left right : BitVec width) :
    Ensures (add left right) (fun sum => sum = left + right) := by
  intro sum exact same
  cases same
  rfl

/-- What every round keeps holds when a loop is over. -/
theorem ensures_loop (guard : α -> Bool) {body : α -> Checked α} (invariant : α -> Prop)
    (round : forall state, invariant state -> guard state = true -> Ensures (body state) invariant)
    (fuel : Nat) (state : α) (start : invariant state) :
    Ensures (loop guard body fuel state) (fun final => invariant final ∧ guard final = false) := by
  induction fuel generalizing state with
  | zero => exact nofun
  | succ fuel inductionHypothesis =>
      rw [loop]
      by_cases more : guard state = true
      · rw [if_pos more]
        exact ensures_bind (round state start more) inductionHypothesis
      · rw [if_neg more]
        exact ensures_pure ⟨start, Bool.eq_false_of_not_eq_true more⟩

/-- The states in which a loop runs its body, for at most `fuel` evaluations of
the guard. -/
def rounds (guard : α -> Bool) (body : α -> Checked α) : Nat -> α -> List α
  | 0, _ => []
  | fuel + 1, state =>
      if guard state then
        state :: (match body state with
          | none => []
          | some (next, _) => rounds guard body fuel next)
      else []

/-- What every round keeps holds whenever the body is run. -/
theorem rounds_invariant (guard : α -> Bool) {body : α -> Checked α} (invariant : α -> Prop)
    (round : forall state, invariant state -> guard state = true -> Ensures (body state) invariant)
    (fuel : Nat) (state : α) (start : invariant state) :
    forall visited, visited ∈ rounds guard body fuel state -> invariant visited ∧ guard visited = true := by
  induction fuel generalizing state with
  | zero => exact nofun
  | succ fuel inductionHypothesis =>
      intro visited member
      rw [rounds] at member
      by_cases more : guard state = true
      · rw [if_pos more] at member
        rcases List.mem_cons.mp member with rfl | later
        · exact ⟨start, more⟩
        · cases bodyIs : body state with
          | none =>
              rw [bodyIs] at later
              cases later
          | some next =>
              rw [bodyIs] at later
              exact inductionHypothesis next.1 (round state start more next.1 next.2 bodyIs) visited later
      · rw [if_neg more] at member
        cases member

end Checked

end Machine
end Sweater
