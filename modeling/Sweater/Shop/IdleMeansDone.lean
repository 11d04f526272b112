import Sweater.Shop.WorkAccount
import Mathlib.Data.List.Perm.Subperm

namespace Sweater
namespace Shop

open Threading
open Spread
open Interleaving
open Interleaving.Stacked

/-!
# What a process-wide count of zero says

`in_flight_inc()` is called after the item has been queued, and after its
worker has been signalled.  The item may therefore be executed, and taken off
the count, before it is counted.  The count then is too low by one, and may
read zero while somebody else's item is unfinished.

The count itself is exact modulo its range: it is the number of items counted
less the number of items retired.  So zero means what it should in all runs in
which no item is retired before it is counted.
-/

variable {Shop Thread : Type} {program : Program Shop}

/-! ## The counter -/

/-- The counter holds the items counted less the items retired. -/
def Shared.InFlight (shared : Shared program) : Prop :=
  shared.inFlight + BitVec.ofNat program.sizeBits (shared.retired.countP Work.isItem) =
    BitVec.ofNat program.sizeBits shared.counted.length

/-- Whoever is about to return true has counted the item. -/
def Frame.Counted (shared : Shared program) : Frame Shop program.bits -> Prop
  | .fire _ serial (.finished true) => serial ∈ shared.counted
  | _ => True

section Steps

variable [DecidableEq Shop] {pool : Pool program Thread} {callStack : Thread -> List (Frame Shop program.bits)}
  {thread : Thread} {shared shared' : Shared program} {frame : Frame Shop program.bits}
  {frames : List (Frame Shop program.bits)}

theorem ShopStep.inFlight (move : ShopStep pool callStack thread shared frame shared' frames)
    (exact : shared.InFlight) : shared'.InFlight := by
  cases move with
  | worker move => cases move <;> exact exact
  | execution move =>
      cases move with
      | invoke | finish => exact exact
      | arrive host part =>
          simp only [Shared.InFlight, List.countP_append] at exact ⊢
          exact exact
      | discount host serial =>
          simp only [Shared.InFlight, List.countP_append, List.countP_singleton, Work.isItem, if_true] at exact ⊢
          rw [BitVec.ofNat_add, ← exact, ← BitVec.add_assoc, add_right_comm, BitVec.ofNat_eq_ofNat,
            BitVec.sub_add_cancel]
  | fire move =>
      cases move with
      | countInFlight shop serial =>
          simp only [Shared.InFlight, List.length_append, List.length_singleton] at exact ⊢
          rw [BitVec.ofNat_add, ← exact, BitVec.ofNat_eq_ofNat, add_right_comm]
      | _ => exact exact
  | spread move => cases move <;> exact exact
  | stop move => cases move <;> exact exact
  | call move => cases move <;> exact exact

theorem ShopStep.counted_grows (move : ShopStep pool callStack thread shared frame shared' frames) :
    shared.counted.Sublist shared'.counted := by
  cases move with
  | worker move => cases move <;> exact List.Sublist.refl _
  | execution move => cases move <;> exact List.Sublist.refl _
  | fire move =>
      cases move with
      | countInFlight => exact List.sublist_append_left _ _
      | _ => exact List.Sublist.refl _
  | spread move => cases move <;> exact List.Sublist.refl _
  | stop move => cases move <;> exact List.Sublist.refl _
  | call move => cases move <;> exact List.Sublist.refl _

omit [DecidableEq Shop] in
theorem Frame.Counted.stable (counted : frame.Counted shared)
    (grows : shared.counted.Sublist shared'.counted) : frame.Counted shared' := by
  cases frame with
  | fire shop serial point =>
      cases point with
      | finished enqueueSucceeded =>
          cases enqueueSucceeded with
          | true => exact grows.subset counted
          | false => trivial
      | _ => trivial
  | _ => trivial

theorem ShopStep.counted (move : ShopStep pool callStack thread shared frame shared' frames)
    (counted : frame.Counted shared) : forall next, next ∈ frames -> next.Counted shared' := by
  cases move with
  | worker move => cases move <;> simp only [List.mem_singleton, forall_eq] <;> trivial
  | execution move =>
      cases move with
      | invoke | finish =>
          simp only [List.mem_singleton, forall_eq]
          trivial
      | arrive host part | discount host serial =>
          simp only [List.mem_singleton, forall_eq]
          cases host <;> trivial
  | fire move =>
      cases move <;> simp only [List.mem_singleton, forall_eq]
      case addItem shop serial enqueueSucceeded => cases enqueueSucceeded <;> trivial
      case countInFlight shop serial => exact List.mem_append_right _ (List.mem_singleton_self serial)
      all_goals trivial
  | spread move => cases move <;> simp only [List.mem_singleton, forall_eq] <;> trivial
  | stop move => cases move <;> simp only [List.mem_singleton, forall_eq] <;> trivial
  | call move =>
      have grows := (ShopStep.call move).counted_grows
      cases move with
      | fire | spread | stop =>
          simp only [List.mem_cons, List.not_mem_nil, or_false, forall_eq_or_imp, forall_eq]
          exact ⟨trivial, counted.stable grows⟩
      | fired | spreadReturn | stopped => exact fun _ impossible => by cases impossible

/-- An accepted item has been reported by the call that fired it. -/
theorem ShopStep.accepted (move : ShopStep pool callStack thread shared frame shared' frames)
    {shop : Shop} {serial : Nat} (accepted : (shop, serial) ∈ shared'.accepted) :
    (shop, serial) ∈ shared.accepted ∨ frame = .fire shop serial (.finished true) := by
  cases move with
  | worker move => cases move <;> exact Or.inl accepted
  | execution move => cases move <;> exact Or.inl accepted
  | fire move => cases move <;> exact Or.inl accepted
  | spread move => cases move <;> exact Or.inl accepted
  | stop move => cases move <;> exact Or.inl accepted
  | call move =>
      cases move with
      | fired own item enqueueSucceeded =>
          rcases List.mem_append.mp accepted with earlier | new
          · exact Or.inl earlier
          · cases enqueueSucceeded with
            | true =>
                cases List.mem_singleton.mp new
                exact Or.inr rfl
            | false => cases new
      | _ => exact Or.inl accepted

end Steps

/-! ## Whole runs -/

section Runs

variable [DecidableEq Shop] [Fintype Thread] [DecidableEq Thread] {pool : Pool program Thread}
  {state : Stacked Thread (Frame Shop program.bits) (Shared program)}

omit [Fintype Thread] in
theorem inFlight (reachable : (shopSystem pool).Reachable state) : state.shared.InFlight := by
  apply reachable.invariant
  · rintro state rfl
    exact BitVec.add_zero _
  · intro before after _ earlier move
    cases move with
    | top thread frame rest shared frames place localStep => exact localStep.inFlight earlier

omit [Fintype Thread] in
theorem frames_counted (reachable : (shopSystem pool).Reachable state) (thread : Thread)
    (frame : Frame Shop program.bits) (member : frame ∈ state.callStack thread) :
    frame.Counted state.shared := by
  revert thread frame
  apply reachable.invariant
  · rintro state rfl thread frame member
    rcases mem_initialStack member with rfl | ⟨shop, index, _, rfl⟩
    · trivial
    · trivial
  · intro before after _ earlier move
    apply frames_step move (fun state _ frame => frame.Counted state.shared) earlier
    · rintro thread top rest shared frames _ localStep rfl holds
      exact localStep.counted holds
    · rintro thread top rest shared frames _ localStep rfl other frame _ holds
      exact holds.stable localStep.counted_grows

omit [Fintype Thread] in
theorem counted_of_accepted (reachable : (shopSystem pool).Reachable state) {shop : Shop} {serial : Nat}
    (accepted : (shop, serial) ∈ state.shared.accepted) : serial ∈ state.shared.counted := by
  induction reachable with
  | initial first =>
      rw [first] at accepted
      cases accepted
  | step earlier move inductionHypothesis =>
      cases move with
      | top thread frame rest shared frames place localStep =>
          rcases localStep.accepted accepted with before | rfl
          · exact localStep.counted_grows.subset (inductionHypothesis before)
          · have counted : Frame.Counted _ (.fire shop serial (.finished true)) :=
              frames_counted earlier thread _ (by rw [place]; exact List.mem_cons_self)
            exact localStep.counted_grows.subset counted

/-- Nothing is retired twice, or without having been executed. -/
theorem retired_count_le (reachable : (shopSystem pool).Reachable state) (work : Work) :
    state.shared.retired.count work ≤ state.shared.finished.count work ∧
      state.shared.finished.count work ≤ 1 := by
  have once := List.nodup_iff_count_le_one.mp (created_nodup reachable) work
  obtain ⟨creation, invocation, completion⟩ := accounted (fun other => other == work) reachable
  simp only [Stacked.Balanced, Shared.placed] at creation invocation completion
  unfold List.count at once ⊢
  omega

theorem retired_nodup (reachable : (shopSystem pool).Reachable state) : state.shared.retired.Nodup := by
  rw [List.nodup_iff_count_le_one]
  intro work
  have bounds := retired_count_le reachable work
  exact Nat.le_trans bounds.1 bounds.2

/-! ## Runs in which the count does not lag -/

/-- An item is only retired when its producer has counted it. -/
def CountedFirst (before after : Stacked Thread (Frame Shop program.bits) (Shared program)) : Prop :=
  forall serial, .item serial ∈ after.shared.retired ->
    .item serial ∈ before.shared.retired ∨ serial ∈ before.shared.counted

/-- The items counted and not yet retired stay below the range of `std::size_t`. -/
def Shared.CountInRange (shared : Shared program) : Prop :=
  shared.counted.length < shared.retired.countP Work.isItem + 2 ^ program.sizeBits

instance (shared : Shared program) : Decidable shared.CountInRange := inferInstanceAs (Decidable (_ < _))

/-- The runs in which no item is retired before it is counted. -/
def countedFirstSystem (pool : Pool program Thread) :
    System (Stacked Thread (Frame Shop program.bits) (Shared program)) :=
  ((shopSystem pool).stepsWhere CountedFirst).within (fun state => state.shared.CountInRange)

omit [Fintype Thread] in
/-- While nothing has been retired, nothing has been retired too early. -/
theorem countedFirst_of_unretired (reachable : (shopSystem pool).Reachable state)
    (unretired : state.shared.retired = []) (few : state.shared.counted.length < 2 ^ program.sizeBits) :
    (countedFirstSystem pool).Reachable state := by
  have inRange : forall shared : Shared program, shared.counted.length < 2 ^ program.sizeBits ->
      shared.CountInRange := fun shared few => Nat.lt_of_lt_of_le few (Nat.le_add_left _ _)
  induction reachable with
  | initial first => exact .initial ⟨first, inRange _ few⟩
  | @step before after earlier move inductionHypothesis =>
      have first : CountedFirst before after := by
        intro serial retired
        rw [unretired] at retired
        cases retired
      cases move with
      | top thread frame rest shared frames place localStep =>
          have retired := localStep.retired_grows
          rw [show shared.retired = [] from unretired] at retired
          have fewer := Nat.lt_of_le_of_lt localStep.counted_grows.length_le few
          exact .step (inductionHypothesis (List.sublist_nil.mp retired) fewer)
            ⟨⟨.top thread frame rest shared frames place localStep, first⟩, inRange _ few⟩

omit [Fintype Thread] in
theorem counted_of_retired (reachable : (countedFirstSystem pool).Reachable state) {serial : Nat}
    (retired : .item serial ∈ state.shared.retired) : serial ∈ state.shared.counted := by
  induction reachable with
  | initial first =>
      rw [first.1] at retired
      cases retired
  | @step before after earlier move inductionHypothesis =>
      have already : serial ∈ before.shared.counted := by
        rcases move.1.2 serial retired with before | counted
        · exact inductionHypothesis before
        · exact counted
      cases move.1.1 with
      | top thread frame rest shared frames place localStep => exact localStep.counted_grows.subset already

/-- When the count is zero, the items counted are the items retired. -/
theorem retired_perm_counted (reachable : (countedFirstSystem pool).Reachable state)
    (zero : state.shared.inFlight = 0) :
    (state.shared.retired.filter Work.isItem).Perm (state.shared.counted.map Work.item) := by
  have earlier := reachable.of_within.of_stepsWhere
  have subset : state.shared.retired.filter Work.isItem ⊆ state.shared.counted.map Work.item := by
    intro work member
    have item := List.of_mem_filter member
    cases work with
    | item serial => exact List.mem_map_of_mem (counted_of_retired reachable (List.mem_of_mem_filter member))
    | part piece => cases item
  have contained := List.Nodup.subperm ((retired_nodup earlier).filter _) subset
  have fewer : state.shared.retired.countP Work.isItem ≤ state.shared.counted.length := by
    have length := contained.length_le
    rwa [← List.countP_eq_length_filter, List.length_map] at length
  -- the difference is a multiple of the range, and smaller than it
  have congruent : state.shared.retired.countP Work.isItem ≡ state.shared.counted.length
      [MOD 2 ^ program.sizeBits] := by
    have value := congrArg BitVec.toNat (inFlight earlier)
    rwa [zero, BitVec.ofNat_eq_ofNat, BitVec.zero_add, BitVec.toNat_ofNat, BitVec.toNat_ofNat] at value
  have range : state.shared.counted.length - state.shared.retired.countP Work.isItem < 2 ^ program.sizeBits := by
    have inside : state.shared.counted.length < _ := reachable.inside
    omega
  have none := Nat.eq_zero_of_dvd_of_lt ((Nat.modEq_iff_dvd' fewer).mp congruent) range
  apply contained.perm_of_length_le
  rw [← List.countP_eq_length_filter, List.length_map]
  omega

/-- Where no item is retired before it is counted, a count of zero means that
every item accepted so far, by any shop, has finished. -/
theorem idle_means_done (reachable : (countedFirstSystem pool).Reachable state)
    (zero : state.shared.inFlight = 0) (shop : Shop) (serial : Nat)
    (accepted : (shop, serial) ∈ state.shared.accepted) :
    state.shared.finished.count (.item serial) = 1 := by
  have earlier := reachable.of_within.of_stepsWhere
  have counted := counted_of_accepted earlier accepted
  have retired : .item serial ∈ state.shared.retired.filter Work.isItem :=
    (retired_perm_counted reachable zero).mem_iff.mpr (List.mem_map_of_mem counted)
  have once := List.count_pos_iff.mpr (List.mem_of_mem_filter retired)
  have bounds := retired_count_le earlier (.item serial)
  omega

end Runs

/-! ## Short runs -/

/-- A shop that has executed the only item it was given. -/
theorem idle_means_done_single :
    Exists fun state => (countedFirstSystem (smallPool Unit)).Reachable state ∧ state.shared.inFlight = 0 ∧
      ((), 0) ∈ state.shared.accepted ∧ state.shared.finished.count (.item 0) = 1 := by
  have start : (shopSystem (smallPool Unit)).Reachable ⟨Shared.fresh, (smallPool Unit).initialStack⟩ :=
    .initial rfl
  have called := advance start (some ()) rfl (.call (.fire .outside () rfl (Or.inl rfl)))
  have loaded := advance called (some ()) rfl (.fire (.loadRotor () 0))
  have chosen := advance loaded (some ()) rfl (.fire (.stick () 0 _ (by decide)))
  have queued := advance chosen (some ()) rfl (.fire (.enqueue () 0 _))
  have notified := advance queued (some ()) rfl (.fire (.notify () 0 _ _))
  have added := advance notified (some ()) rfl (.fire (.addItem () 0 _))
  have counted := advance added (some ()) rfl (.fire (.countInFlight () 0))
  have fired := advance counted (some ()) rfl (.call (.fired () 0 _))
  have taken := advance fired none rfl (.worker (.takeOwn () 0 [] _ [] rfl rfl rfl))
  have invoked := advance taken none rfl (.execution (.invoke _ _))
  have finished := advance invoked none rfl (.execution (.finish _ _))
  have unretired := countedFirst_of_unretired finished rfl (by decide)
  have inOrder : forall serial, Work.item serial ∈ [.item 0] -> serial ∈ [0] := by
    intro serial member
    cases List.mem_singleton.mp member
    exact List.mem_singleton_self 0
  have retired : (countedFirstSystem (smallPool Unit)).Reachable _ :=
    .step unretired ⟨⟨.top none _ _ _ _ rfl (.execution (.discount _ 0)),
      fun serial member => Or.inr (inOrder serial member)⟩, by decide⟩
  exact ⟨_, retired, by decide, List.mem_singleton_self _,
    idle_means_done retired (by decide) () 0 (List.mem_singleton_self _)⟩

/-- Two producers share the worker.  The first item is retired before it is
counted; then the second producer returns true while the count is zero and its
own item is still queued. -/
theorem idle_with_queued_item :
    ¬ (forall state, (shopSystem (smallPool Bool)).Reachable state -> state.shared.inFlight = 0 ->
      forall shop serial, (shop, serial) ∈ state.shared.accepted -> .item serial ∈ state.shared.finished) := by
  intro always
  have start : (shopSystem (smallPool Bool)).Reachable ⟨Shared.fresh, (smallPool Bool).initialStack⟩ :=
    .initial rfl
  have called := advance start (some false) rfl (.call (.fire .outside () rfl (Or.inl rfl)))
  have loaded := advance called (some false) rfl (.fire (.loadRotor () 0))
  have chosen := advance loaded (some false) rfl (.fire (.stick () 0 _ (by decide)))
  have queued := advance chosen (some false) rfl (.fire (.enqueue () 0 _))
  have taken := advance queued none rfl (.worker (.takeOwn () 0 [] _ [] rfl rfl rfl))
  have invoked := advance taken none rfl (.execution (.invoke _ _))
  have finished := advance invoked none rfl (.execution (.finish _ _))
  have retired := advance finished none rfl (.execution (.discount _ 0))
  have called := advance retired (some true) rfl (.call (.fire .outside () rfl (Or.inl rfl)))
  have loaded := advance called (some true) rfl (.fire (.loadRotor () 1))
  have chosen := advance loaded (some true) rfl (.fire (.stick () 1 _ (by decide)))
  have queued := advance chosen (some true) rfl (.fire (.enqueue () 1 _))
  have notified := advance queued (some true) rfl (.fire (.notify () 1 _ _))
  have added := advance notified (some true) rfl (.fire (.addItem () 1 _))
  have counted := advance added (some true) rfl (.fire (.countInFlight () 1))
  have fired := advance counted (some true) rfl (.call (.fired () 1 _))
  have claimed := always _ fired (by decide) () 1 (by decide)
  exact absurd claimed (by decide)

end Shop
end Sweater
