import Mathlib.Algebra.Order.Ring.Rat
import Mathlib.Tactic.Linarith
import Quantframe.Lib.Knapsack
import Quantframe.Trader.Knapsack

/-!
# The best selection

With exact values the knapsack selects a sublist of the greatest value among those within the capacity.
-/

namespace Quantframe.Trader

open Lib.Knapsack

/-- Values without rounding; `as i64` truncates and saturates. -/
def PriceFloats.exact : PriceFloats ℚ where
  ofInt n := n
  add := (· + ·)
  lt a b := decide (a < b)
  asI64 q := max (-(2 ^ 63)) (min (2 ^ 63 - 1) (q.num.tdiv q.den))

theorem exact_ofInt_zero : PriceFloats.exact.ofInt 0 = 0 := Int.cast_zero

/-- The greatest value of the items within a capacity. -/
abbrev BestValue (items : List (Weighed ℚ)) (w : Nat) (v : ℚ) : Prop := Best Weighed.capacity Weighed.value items w v

/-- `dp` holds the greatest value of the items so far for each capacity. -/
def Tabulates (dp : List ℚ) (items : List (Weighed ℚ)) : Prop :=
  ∀ w, w < dp.length → BestValue items w (dp.getD w 0)

section Tables

variable {dp : List ℚ} {before : List (Weighed ℚ)} {item : Weighed ℚ} {w wMax : Nat} {u : ℚ}

theorem getD_choices_exact (hw : w < dp.length) :
    (choices .exact dp item.capacity item.value).getD w false = true ↔
      item.capacity ≤ w ∧ dp.getD w 0 < dp.getD (w - item.capacity) 0 + item.value := by
  rw [getD_choices hw, Bool.and_eq_true, decide_eq_true_eq, exact_ofInt_zero]
  exact and_congr_right fun _ => decide_eq_true_iff

/-- Where the row of an item marks a capacity, taking the item makes the greatest value there. -/
theorem Tabulates.taken (h : Tabulates dp before) (hw : w < dp.length)
    (hchosen : (choices .exact dp item.capacity item.value).getD w false = true) :
    BestValue (before ++ [item]) w (dp.getD (w - item.capacity) 0 + item.value) := by
  obtain ⟨hroom, hraises⟩ := (getD_choices_exact hw).mp hchosen
  have hbest := (h w hw).concat (h (w - item.capacity) (by omega)) hroom
  rwa [max_eq_right hraises.le] at hbest

/-- Elsewhere the greatest value is the one without the item. -/
theorem Tabulates.left (h : Tabulates dp before) (hw : w < dp.length)
    (hchosen : ¬ (choices .exact dp item.capacity item.value).getD w false = true) :
    BestValue (before ++ [item]) w (dp.getD w 0) := by
  by_cases hroom : item.capacity ≤ w
  · have hraises : ¬ dp.getD w 0 < dp.getD (w - item.capacity) 0 + item.value :=
      fun hraises => hchosen ((getD_choices_exact hw).mpr ⟨hroom, hraises⟩)
    have hbest := (h w hw).concat (h (w - item.capacity) (by omega)) hroom
    rwa [max_eq_left (not_lt.mp hraises)] at hbest
  · exact (h w hw).concat_heavy (not_le.mp hroom)

theorem Tabulates.improve (h : Tabulates dp before) (item : Weighed ℚ) :
    Tabulates (improve .exact dp item.capacity item.value) (before ++ [item]) := by
  intro w hw
  rw [length_improve] at hw
  rw [← exact_ofInt_zero, getD_improve hw, exact_ofInt_zero]
  split
  next hchosen => exact h.taken hw hchosen
  next hchosen => exact h.left hw hchosen

theorem tabulates_zero (n : Nat) : Tabulates (List.replicate n 0) [] := by
  intro w hw
  rw [List.getD_eq_getElem?_getD, List.getElem?_replicate]
  split
  · exact Best.nil
  · exact Best.nil

/-- The way back parts the items, and what it selects makes up the greatest value with what fits before them. -/
theorem walkBack_best (items : List (Weighed ℚ)) (hdp : Tabulates dp before) (hlength : dp.length = wMax + 1) :
    let back := walkBack wMax (items.zip (choiceRows .exact dp items))
    Parts items back.1 back.2.1 ∧
      ∀ u, BestValue before back.2.2 u → BestValue (before ++ items) wMax (u + (back.1.map Weighed.value).sum) := by
  induction items generalizing dp before with
  | nil =>
      refine ⟨.nil, fun u hu => ?_⟩
      rw [List.append_nil]
      exact (add_zero u).symm ▸ hu
  | cons item items ih =>
      obtain ⟨hparts, hbest⟩ := ih (hdp.improve item) (by rw [length_improve, hlength])
      have hroom :=
        load_walkBack wMax (items.zip (choiceRows .exact (improve .exact dp item.capacity item.value) items))
      rw [choiceRows, List.zip_cons_cons, walkBack_cons]
      generalize walkBack wMax (items.zip (choiceRows .exact (improve .exact dp item.capacity item.value) items)) = rest
        at *
      have hw : rest.2.2 < dp.length := by omega
      rw [List.append_assoc, List.singleton_append] at hbest
      dsimp only
      split
      next hchosen =>
        refine ⟨hparts.consLeft item, fun u hu => ?_⟩
        rw [hu.unique (hdp (rest.2.2 - item.capacity) (by omega)), List.map_cons, List.sum_cons, ← add_assoc]
        exact hbest _ (hdp.taken hw hchosen.2)
      next hleft =>
        refine ⟨hparts.consRight item, fun u hu => ?_⟩
        rw [hu.unique (hdp rest.2.2 hw)]
        refine hbest _ (hdp.left hw fun hchosen => hleft ⟨?_, hchosen⟩)
        exact ((getD_choices_exact hw).mp hchosen).1

end Tables

theorem load_eq_sum_max (items : List (Weighed ℚ)) : (load items : Int) = (items.map fun i => max i.weight 0).sum := by
  induction items with
  | nil => rfl
  | cons i items ih =>
      have hload : load (i :: items) = i.weight.toNat + load items := rfl
      rw [hload, List.map_cons, List.sum_cons, ← ih]
      omega

theorem knapsack_parts (items : List (Weighed ℚ)) (maxWeight : Int) :
    Parts items (knapsack .exact items maxWeight).1 (knapsack .exact items maxWeight).2 := by
  rw [knapsack_eq, exact_ofInt_zero]
  exact (walkBack_best items (tabulates_zero (maxWeight.toNat + 1)) List.length_replicate).1

theorem knapsack_best {items s : List (Weighed ℚ)} {maxWeight : Int} (hs : s.Sublist items)
    (hfits : load s ≤ maxWeight.toNat) :
    (s.map Weighed.value).sum ≤ ((knapsack .exact items maxWeight).1.map Weighed.value).sum := by
  rw [knapsack_eq, exact_ofInt_zero]
  have hgreatest := (walkBack_best items (tabulates_zero (maxWeight.toNat + 1)) List.length_replicate).2 0 Best.nil
  rw [zero_add] at hgreatest
  exact hgreatest.le hs hfits

/-- What is left out and of value does not fit in with what is selected. -/
theorem knapsack_full {items : List (Weighed ℚ)} {maxWeight : Int} {i : Weighed ℚ}
    (hleft : i ∈ (knapsack .exact items maxWeight).2) (hvalue : 0 < i.value) :
    maxWeight.toNat < load (knapsack .exact items maxWeight).1 + i.capacity := by
  by_contra hroom
  obtain ⟨s, hs, hperm⟩ := (knapsack_parts items maxWeight).join hleft
  have hload : load s = i.capacity + load (knapsack .exact items maxWeight).1 :=
    (hperm.map Weighed.capacity).sum_eq
  have hvalues : (s.map Weighed.value).sum =
      i.value + ((knapsack .exact items maxWeight).1.map Weighed.value).sum := (hperm.map Weighed.value).sum_eq
  have hfits : load s ≤ maxWeight.toNat := by omega
  have hbest := knapsack_best hs hfits
  rw [hvalues] at hbest
  linarith

/-- The knapsack parts its items into two sublists; the one it selects is within the maximum, and of the greatest value
of those that are. -/
theorem knapsack_exact (items : List (Weighed ℚ)) (maxWeight : Int) :
    Parts items (knapsack .exact items maxWeight).1 (knapsack .exact items maxWeight).2 ∧
      ((knapsack .exact items maxWeight).1.map fun i => max i.weight 0).sum ≤ max maxWeight 0 ∧
      ∀ s : List (Weighed ℚ), s.Sublist items → (s.map fun i => max i.weight 0).sum ≤ max maxWeight 0 →
        (s.map Weighed.value).sum ≤ ((knapsack .exact items maxWeight).1.map Weighed.value).sum := by
  refine ⟨knapsack_parts items maxWeight, ?_, fun s hs hfits => ?_⟩
  · have hroom := load_walkBack maxWeight.toNat
      (items.zip (choiceRows .exact (.replicate (maxWeight.toNat + 1) 0) items))
    rw [← load_eq_sum_max, knapsack_eq, exact_ofInt_zero]
    dsimp only
    omega
  · rw [← load_eq_sum_max] at hfits
    exact knapsack_best hs (by omega)

example : knapsack .exact [⟨60, 10, "a", "oa"⟩, ⟨50, 30, "b", "ob"⟩, ⟨50, 25, "c", "oc"⟩] 100 =
    ([⟨50, 30, "b", "ob"⟩, ⟨50, 25, "c", "oc"⟩], [⟨60, 10, "a", "oa"⟩]) := by decide +kernel

end Quantframe.Trader
