import Mathlib.Algebra.Order.Ring.Rat
import Mathlib.Data.Rat.Floor
import Quantframe.Lib.Apportion
import Quantframe.Market.Orders

/-!
# Platinum split across the items of one trade

The weights, which are `f64`, are read as the rationals they stand for.
-/

namespace Quantframe.Trades

open Lib

/-- The mean of the weights that are known and positive, or 1. -/
def fill (weights : List (Option ℚ)) : ℚ :=
  let known := (weights.filterMap id).filter (0 < ·)
  if known.isEmpty then 1 else known.sum / known.length

def filled (weights : List (Option ℚ)) : List ℚ :=
  weights.map fun w =>
    match w with
    | some v => if 0 < v then v else fill weights
    | none => fill weights

/-- The loop that hands out the leftover platinum; it runs once for each. -/
def handOut : Nat → Nat → List Int → List Int
  | 0, _, shares => shares
  | leftover + 1, at_, shares =>
      let shares := shares.modify at_ (· + 1)
      handOut leftover ((at_ + 1) % shares.length) shares

/-- The shares rounded down. -/
def floors (total : Int) (weights : List (Option ℚ)) : List Int :=
  let sum := (filled weights).sum
  (filled weights).map fun w => ⌊(total : ℚ) * w / sum⌋

/-- What is left over of the total. -/
def leftover (total : Int) (weights : List (Option ℚ)) : Int := total - (floors total weights).sum

def splitPlatinum (total : Int) (weights : List (Option ℚ)) : List Int :=
  if weights.isEmpty then [] else handOut (leftover total weights).toNat 0 (floors total weights)

/-- Line weight = unit price × quantity: the user's own order, else the median. -/
def weightsFor (items : List ResolvedItem) (direction : Direction) (ownPrice : ResolvedItem → OrderType → Option Int)
    (median : ResolvedItem → Option ℚ) : List (Option ℚ) :=
  let orderType :=
    match direction with
    | .sale => OrderType.sell
    | .purchase => .buy
  items.map fun item =>
    (((ownPrice item orderType).map fun p => (p : ℚ)).or (median item)).map fun unit => unit * item.quantity

def priceItems (items : List ResolvedItem) (total : Int) (weights : List (Option ℚ)) : List ResolvedItem :=
  let shares := splitPlatinum total weights
  items.mapIdx fun i item =>
    match shares[i]? with
    | some price => { item with price }
    | none => item

/-! ### The weights -/

theorem fill_pos (weights : List (Option ℚ)) : 0 < fill weights := by
  rw [fill]
  split
  next => exact one_pos
  next hknown =>
    have hne : (weights.filterMap id).filter (0 < ·) ≠ [] := fun h => hknown (List.isEmpty_iff.mpr h)
    refine div_pos (List.sum_pos _ (fun w hw => ?_) hne) (Nat.cast_pos.mpr (List.length_pos_of_ne_nil hne))
    exact of_decide_eq_true (List.mem_filter.mp hw).2

theorem filled_pos (weights : List (Option ℚ)) : ∀ w ∈ filled weights, 0 < w := by
  intro w hw
  obtain ⟨known, -, rfl⟩ := List.mem_map.mp hw
  split
  next v =>
    split
    next hv => exact hv
    next => exact fill_pos weights
  next => exact fill_pos weights

theorem length_filled (weights : List (Option ℚ)) : (filled weights).length = weights.length := List.length_map _

theorem sum_filled_pos {weights : List (Option ℚ)} (hne : weights ≠ []) : 0 < (filled weights).sum :=
  List.sum_pos _ (filled_pos weights) fun h => hne (List.map_eq_nil_iff.mp h)

theorem floors_eq (total : Int) (weights : List (Option ℚ)) :
    floors total weights = (Apportion.parts (total : ℚ) (filled weights)).map Int.floor := by
  rw [floors, Apportion.parts, List.map_map]
  rfl

theorem length_floors (total : Int) (weights : List (Option ℚ)) : (floors total weights).length = weights.length := by
  rw [floors, List.length_map, length_filled]

/-- The floors leave less over than there are items. -/
theorem leftover_bounds (total : Int) {weights : List (Option ℚ)} (hne : weights ≠ []) :
    0 ≤ leftover total weights ∧ leftover total weights < weights.length := by
  have hsum := Apportion.sum_parts (sum_filled_pos hne).ne' (total : ℚ)
  have hparts : Apportion.parts (total : ℚ) (filled weights) ≠ [] := by
    rw [Apportion.parts, Ne, List.map_eq_nil_iff, ← List.length_eq_zero_iff, length_filled, List.length_eq_zero_iff]
    exact hne
  have hbounds := Apportion.leftover_bounds hsum hparts
  rw [← floors_eq, Apportion.parts, List.length_map, length_filled] at hbounds
  exact hbounds

/-! ### The loop -/

/-- Before it comes round, the loop has given one to each item from `at_` on. -/
theorem getElem?_handOut (left at_ : Nat) (shares : List Int) (hfits : at_ + left ≤ shares.length) (i : Nat) :
    (handOut left at_ shares)[i]? =
      shares[i]?.map fun share => if at_ ≤ i ∧ i < at_ + left then share + 1 else share := by
  induction left generalizing at_ shares with
  | zero =>
      have hnone : ¬ (at_ ≤ i ∧ i < at_ + 0) := by omega
      simp only [handOut, hnone, if_false, Option.map_id']
  | succ left ih =>
      have hlength : (shares.modify at_ (· + 1)).length = shares.length := List.length_modify ..
      -- the last round may come round to the first item, but gives it nothing
      have hnext : (at_ + 1) % shares.length + left ≤ shares.length ∧
          (((at_ + 1) % shares.length ≤ i ∧ i < (at_ + 1) % shares.length + left) ↔
            at_ + 1 ≤ i ∧ i < at_ + 1 + left) := by
        rcases Nat.lt_or_ge (at_ + 1) shares.length with hlt | hge
        · rw [Nat.mod_eq_of_lt hlt]
          omega
        · have hmod := Nat.mod_lt (at_ + 1) (by omega : 0 < shares.length)
          omega
      rw [handOut, hlength, ih _ _ (hlength.symm ▸ hnext.1), List.getElem?_modify, Option.map_eq_map,
        Option.map_map]
      refine congrFun (congrArg Option.map ?_) _
      funext share
      simp only [Function.comp_apply, hnext.2]
      split_ifs <;> omega

theorem sum_modify (shares : List Int) {at_ : Nat} (hat : at_ < shares.length) :
    (shares.modify at_ (· + 1)).sum = shares.sum + 1 := by
  induction shares generalizing at_ with
  | nil => exact absurd hat (Nat.not_lt_zero _)
  | cons share shares ih =>
      cases at_ with
      | zero =>
          rw [List.modify_zero_cons, List.sum_cons, List.sum_cons]
          omega
      | succ at_ =>
          rw [List.modify_succ_cons, List.sum_cons, List.sum_cons, ih (Nat.lt_of_succ_lt_succ hat)]
          omega

/-- Each round gives one platinum, wherever it stands. -/
theorem sum_handOut (left : Nat) {at_ : Nat} {shares : List Int} (hat : at_ < shares.length) :
    (handOut left at_ shares).sum = shares.sum + left := by
  induction left generalizing at_ shares with
  | zero => exact (add_zero _).symm
  | succ left ih =>
      have hlength : (shares.modify at_ (· + 1)).length = shares.length := List.length_modify ..
      rw [handOut, ih, sum_modify shares hat]
      · omega
      · rw [hlength]
        exact Nat.mod_lt _ (by omega)

/-! ### The split -/

theorem length_handOut (left at_ : Nat) (shares : List Int) : (handOut left at_ shares).length = shares.length := by
  induction left generalizing at_ shares with
  | zero => rfl
  | succ left ih => rw [handOut, ih, List.length_modify]

theorem splitPlatinum_of_ne_nil (total : Int) {weights : List (Option ℚ)} (hne : weights ≠ []) :
    splitPlatinum total weights = handOut (leftover total weights).toNat 0 (floors total weights) :=
  if_neg fun h => hne (List.isEmpty_iff.mp h)

theorem length_splitPlatinum (total : Int) (weights : List (Option ℚ)) :
    (splitPlatinum total weights).length = weights.length := by
  cases weights with
  | nil => rfl
  | cons w weights =>
      rw [splitPlatinum_of_ne_nil total (List.cons_ne_nil _ _), length_handOut, length_floors]

theorem sum_splitPlatinum (total : Int) {weights : List (Option ℚ)} (hne : weights ≠ []) :
    (splitPlatinum total weights).sum = total := by
  have hfirst : 0 < (floors total weights).length := by
    rw [length_floors]
    exact List.length_pos_of_ne_nil hne
  rw [splitPlatinum_of_ne_nil total hne, sum_handOut _ hfirst, Int.toNat_of_nonneg (leftover_bounds total hne).1,
    leftover]
  omega

/-- The shares sum to the total. Each is its exact part rounded down or one more and none is negative, and the loop
runs less often than there are items. -/
theorem split_exact (total : Int) (weights : List (Option ℚ)) (htotal : 0 ≤ total) (hne : weights ≠ []) :
    (splitPlatinum total weights).sum = total ∧
      List.Forall₂ (fun share w =>
          (share = ⌊(total : ℚ) * w / (filled weights).sum⌋ ∨ share = ⌊(total : ℚ) * w / (filled weights).sum⌋ + 1) ∧
            0 ≤ share)
        (splitPlatinum total weights) (filled weights) ∧
      (leftover total weights).toNat < weights.length := by
  refine ⟨sum_splitPlatinum total hne, List.forall₂_iff_get.mpr ⟨?_, fun i hshare hw => ?_⟩, ?_⟩
  · rw [length_splitPlatinum, length_filled]
  · simp only [List.get_eq_getElem]
    have hbounds := leftover_bounds total hne
    have hfloor : (floors total weights)[i]? = some ⌊(total : ℚ) * (filled weights)[i] / (filled weights).sum⌋ := by
      rw [floors, List.getElem?_map, List.getElem?_eq_getElem hw, Option.map_some]
    have hgiven := getElem?_handOut (leftover total weights).toNat 0 (floors total weights)
      (by rw [length_floors]; omega) i
    rw [← splitPlatinum_of_ne_nil total hne, List.getElem?_eq_getElem hshare, hfloor, Option.map_some,
      Option.some.injEq] at hgiven
    have hnonneg : 0 ≤ ⌊(total : ℚ) * (filled weights)[i] / (filled weights).sum⌋ := by
      refine Int.floor_nonneg.mpr (div_nonneg (mul_nonneg (Int.cast_nonneg htotal) ?_) (sum_filled_pos hne).le)
      exact (filled_pos weights _ (List.getElem_mem hw)).le
    rw [hgiven]
    split_ifs
    · exact ⟨.inr rfl, by omega⟩
    · exact ⟨.inl rfl, hnonneg⟩
  · have hbounds := leftover_bounds total hne
    omega

theorem split_exact_pair :
    (splitPlatinum 100 [some 2, none]).sum = 100 ∧
      List.Forall₂ (fun share w =>
          (share = ⌊((100 : Int) : ℚ) * w / (filled [some 2, none]).sum⌋ ∨
            share = ⌊((100 : Int) : ℚ) * w / (filled [some 2, none]).sum⌋ + 1) ∧ 0 ≤ share)
        (splitPlatinum 100 [some 2, none]) (filled [some 2, none]) ∧
      (leftover 100 [some 2, none]).toNat < 2 :=
  split_exact 100 [some 2, none] (by decide) (List.cons_ne_nil _ _)

example : splitPlatinum 100 [some 2, some 1] = [67, 33] := by decide +kernel

/-! ### The priced items -/

theorem prices_priceItems (total : Int) {items : List ResolvedItem} {weights : List (Option ℚ)}
    (hlength : weights.length = items.length) :
    (priceItems items total weights).map ResolvedItem.price = splitPlatinum total weights := by
  refine List.ext_getElem ?_ fun i hitem hshare => ?_
  · rw [priceItems, List.length_map, List.length_mapIdx, length_splitPlatinum, hlength]
  · rw [List.getElem_map]
    simp only [priceItems, List.getElem_mapIdx, List.getElem?_eq_getElem hshare]

/-- The items of a trade are priced at its platinum. -/
theorem sum_priceItems (total : Int) {items : List ResolvedItem} (hne : items ≠ []) (direction : Direction)
    (ownPrice : ResolvedItem → OrderType → Option Int) (median : ResolvedItem → Option ℚ) :
    ((priceItems items total (weightsFor items direction ownPrice median)).map ResolvedItem.price).sum = total := by
  have hlength : (weightsFor items direction ownPrice median).length = items.length := List.length_map _
  rw [prices_priceItems total hlength]
  refine sum_splitPlatinum total fun h => hne ?_
  rw [← List.length_eq_zero_iff, ← hlength, h, List.length_nil]

end Quantframe.Trades
