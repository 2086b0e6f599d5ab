import Mathlib.Algebra.BigOperators.Group.List.Basic
import Mathlib.Algebra.GroupWithZero.Nat
import Mathlib.Algebra.Ring.Int.Defs
import Quantframe.Trader.Helpers

/-!
# What the knapsack selects

The selection fits the capacity and, with the rest, is what was given. When everything fits, what is left
out is what does not raise the running total of the values.
-/

namespace Quantframe.Trader

open Market

section Knapsack

variable {F : Type} {num : PriceFloats F}

def weights (items : List (Weighed F)) : Int := (items.map Weighed.weight).sum

/-- What the weights come to as indices. -/
def load (items : List (Weighed F)) : Nat := (items.map Weighed.capacity).sum

theorem load_eq_weights {items : List (Weighed F)} (h : ∀ i ∈ items, 0 ≤ i.weight) :
    (load items : Int) = weights items := by
  induction items with
  | nil => rfl
  | cons i items ih =>
      have hi := h i List.mem_cons_self
      have htail := ih fun j hj => h j (List.mem_cons_of_mem _ hj)
      have hload : load (i :: items) = i.weight.toNat + load items := rfl
      have hweights : weights (i :: items) = i.weight + weights items := rfl
      omega

/-- The step back through the items, from any capacity. -/
def walkBack (wMax : Nat) (entries : List (Weighed F × List Bool)) :
    List (Weighed F) × List (Weighed F) × Nat := entries.foldr takeBack ([], [], wMax)

theorem walkBack_cons (wMax : Nat) (entry : Weighed F × List Bool) (entries : List (Weighed F × List Bool)) :
    walkBack wMax (entry :: entries) =
      let rest := walkBack wMax entries
      if entry.1.capacity ≤ rest.2.2 ∧ entry.2.getD rest.2.2 false = true then
        (entry.1 :: rest.1, rest.2.1, rest.2.2 - entry.1.capacity)
      else (rest.1, entry.1 :: rest.2.1, rest.2.2) := rfl

theorem knapsack_eq (items : List (Weighed F)) (maxWeight : Int) :
    knapsack num items maxWeight =
      ((walkBack maxWeight.toNat (items.zip (choiceRows num
          (List.replicate (maxWeight.toNat + 1) (num.ofInt 0)) items))).1,
        (walkBack maxWeight.toNat (items.zip (choiceRows num
          (List.replicate (maxWeight.toNat + 1) (num.ofInt 0)) items))).2.1) := rfl

theorem load_walkBack (wMax : Nat) (entries : List (Weighed F × List Bool)) :
    load (walkBack wMax entries).1 + (walkBack wMax entries).2.2 = wMax := by
  induction entries with
  | nil => simp [walkBack, load]
  | cons entry entries ih =>
      rw [walkBack_cons]
      dsimp only
      split
      next h =>
        have hload : load (entry.1 :: (walkBack wMax entries).1) =
          entry.1.capacity + load (walkBack wMax entries).1 := rfl
        have := h.1
        dsimp only
        omega
      next => exact ih

theorem walkBack_perm (wMax : Nat) (entries : List (Weighed F × List Bool)) :
    ((walkBack wMax entries).1 ++ (walkBack wMax entries).2.1).Perm (entries.map Prod.fst) := by
  induction entries with
  | nil => exact .refl _
  | cons entry entries ih =>
      rw [walkBack_cons]
      dsimp only
      split
      next => exact ih.cons _
      next => exact List.perm_middle.trans (ih.cons _)

theorem length_choiceRows (dp : List F) (items : List (Weighed F)) :
    (choiceRows num dp items).length = items.length := by
  induction items generalizing dp with
  | nil => rfl
  | cons item items ih => simp [choiceRows, ih]

theorem length_improve (dp : List F) (weight : Nat) (value : F) :
    (improve num dp weight value).length = dp.length := by
  simp [improve, choices]

theorem getD_choices {dp : List F} {w : Nat} (hw : w < dp.length) {weight : Nat} {value : F} :
    (choices num dp weight value).getD w false =
      (decide (weight ≤ w) &&
        num.lt (dp.getD w (num.ofInt 0)) (num.add (dp.getD (w - weight) (num.ofInt 0)) value)) := by
  rw [choices, List.getD_eq_getElem?_getD, List.getElem?_map, List.getElem?_range hw, Option.map_some, Option.getD_some]

theorem getD_improve {dp : List F} {w : Nat} (hw : w < dp.length) {weight : Nat} {value : F} :
    (improve num dp weight value).getD w (num.ofInt 0) =
      if (choices num dp weight value).getD w false = true then
        num.add (dp.getD (w - weight) (num.ofInt 0)) value
      else dp.getD w (num.ofInt 0) := by
  have hrow : w < (choices num dp weight value).length := by simpa [choices] using hw
  rw [improve, List.getD_eq_getElem?_getD, List.getElem?_mapIdx, List.getElem?_eq_getElem hrow, Option.map_some,
    Option.getD_some, List.getD_eq_getElem?_getD (l := choices num dp weight value), List.getElem?_eq_getElem hrow,
    Option.getD_some]

theorem knapsack_perm (num : PriceFloats F) (items : List (Weighed F)) (maxWeight : Int) :
    ((knapsack num items maxWeight).1 ++ (knapsack num items maxWeight).2).Perm items := by
  rw [knapsack_eq]
  have hperm := walkBack_perm maxWeight.toNat (items.zip (choiceRows num
    (List.replicate (maxWeight.toNat + 1) (num.ofInt 0)) items))
  rwa [List.map_fst_zip (length_choiceRows _ items).ge] at hperm

/-- What is selected fits. -/
theorem weights_knapsack_le {items : List (Weighed F)} (h : ∀ i ∈ items, 0 ≤ i.weight) {maxWeight : Int}
    (hmax : 0 ≤ maxWeight) : weights (knapsack num items maxWeight).1 ≤ maxWeight := by
  have hselected : ∀ i ∈ (knapsack num items maxWeight).1, 0 ≤ i.weight := fun i hi =>
    h i ((knapsack_perm num items maxWeight).subset (List.mem_append_left _ hi))
  rw [← load_eq_weights hselected, knapsack_eq]
  have hload := load_walkBack maxWeight.toNat (items.zip (choiceRows num
    (List.replicate (maxWeight.toNat + 1) (num.ofInt 0)) items))
  dsimp only
  omega

/-! ### When everything fits -/

/-- A value that makes a total larger. -/
def Raises (num : PriceFloats F) (total value : F) : Bool := num.lt total (num.add total value)

/-- What does not raise the running total of those before it. -/
def leftOut (num : PriceFloats F) : F → List (Weighed F) → List (Weighed F)
  | _, [] => []
  | total, item :: items =>
      if Raises num total item.value then leftOut num (num.add total item.value) items
      else item :: leftOut num total items

/-- From a capacity on, the values are all the same. -/
def Flat (num : PriceFloats F) (dp : List F) (c : Nat) (total : F) : Prop :=
  ∀ w, c ≤ w → w < dp.length → dp.getD w (num.ofInt 0) = total

theorem Flat.choices {dp : List F} {c : Nat} {total : F} (h : Flat num dp c total) {weight w : Nat} (value : F)
    (hw : c + weight ≤ w) (hlength : w < dp.length) :
    (choices num dp weight value).getD w false = Raises num total value := by
  have hread := h w (by omega) hlength
  have hbefore := h (w - weight) (by omega) (by omega)
  have hweight : weight ≤ w := by omega
  rw [getD_choices hlength, hread, hbefore, decide_eq_true hweight, Bool.true_and, Raises]

theorem Flat.improve {dp : List F} {c : Nat} {total : F} (h : Flat num dp c total) (weight : Nat) (value : F) :
    Flat num (improve num dp weight value) (c + weight)
      (if Raises num total value then num.add total value else total) := by
  intro w hw hlength
  rw [length_improve] at hlength
  rw [getD_improve hlength, h.choices value hw hlength, h w (by omega) hlength, h (w - weight) (by omega) (by omega)]

theorem walkBack_of_fits {wMax : Nat} (items : List (Weighed F)) {dp : List F} {c : Nat} {total : F}
    (hflat : Flat num dp c total) (hlength : dp.length = wMax + 1) (hfits : c + load items ≤ wMax) :
    (walkBack wMax (items.zip (choiceRows num dp items))).2.1 = leftOut num total items ∧
      c ≤ (walkBack wMax (items.zip (choiceRows num dp items))).2.2 := by
  induction items generalizing dp c total with
  | nil => exact ⟨rfl, hfits⟩
  | cons item items ih =>
      have hload : load (item :: items) = item.capacity + load items := rfl
      have htail := ih (hflat.improve item.capacity item.value) (by rw [length_improve, hlength]) (by omega)
      have hle := load_walkBack wMax (items.zip
        (choiceRows num (improve num dp item.capacity item.value) items))
      obtain ⟨hleft, hroom⟩ := htail
      have hrow := hflat.choices item.value hroom (by omega)
      rw [choiceRows, List.zip_cons_cons, walkBack_cons, leftOut]
      dsimp only
      rw [hrow]
      cases hraises : Raises num total item.value with
      | true =>
          rw [hraises] at hleft
          rw [if_pos ⟨by omega, rfl⟩, if_pos rfl]
          exact ⟨hleft, by dsimp only; omega⟩
      | false =>
          rw [hraises] at hleft
          rw [if_neg (fun h => Bool.false_ne_true h.2), if_neg Bool.false_ne_true]
          exact ⟨congrArg (item :: ·) hleft, by dsimp only; omega⟩

theorem knapsack_of_fits {items : List (Weighed F)} (h : ∀ i ∈ items, 0 ≤ i.weight) {maxWeight : Int}
    (hfits : weights items ≤ maxWeight) :
    (knapsack num items maxWeight).2 = leftOut num (num.ofInt 0) items := by
  rw [knapsack_eq]
  have hload := load_eq_weights h
  refine (walkBack_of_fits (c := 0) items (fun w _ hw => ?_) List.length_replicate (by omega)).1
  rw [List.getD_eq_getElem?_getD, List.getElem?_replicate]
  split <;> rfl

end Knapsack

end Quantframe.Trader
