import Mathlib.Algebra.BigOperators.Ring.List
import Mathlib.Algebra.Order.BigOperators.Group.List
import Mathlib.Algebra.Order.Floor.Ring

/-!
# Proportional parts

An amount divided in proportion to weights, and what rounding every part down leaves of it.
-/

namespace Quantframe.Lib.Apportion

section Parts

variable {K : Type} [Field K]

/-- The exact parts of an amount. -/
def parts (total : K) (weights : List K) : List K := weights.map fun w => total * w / weights.sum

theorem sum_parts {weights : List K} (h : weights.sum ≠ 0) (total : K) : (parts total weights).sum = total := by
  have hmul : (weights.map fun w => total * w).sum = total * weights.sum :=
    List.sum_hom weights (AddMonoidHom.mulLeft total)
  simp only [parts, div_eq_mul_inv, List.sum_map_mul_right]
  rw [hmul, mul_assoc, mul_inv_cancel₀ h, mul_one]

end Parts

section Floors

variable {K : Type} [Field K] [LinearOrder K] [IsStrictOrderedRing K] [FloorRing K]

theorem sum_floor_le (l : List K) : (((l.map Int.floor).sum : ℤ) : K) ≤ l.sum := by
  induction l with
  | nil => simp
  | cons a l ih =>
      rw [List.map_cons, List.sum_cons, List.sum_cons, Int.cast_add]
      exact add_le_add (Int.floor_le a) ih

theorem sum_le_sum_floor (l : List K) : l.sum ≤ ((l.map Int.floor).sum : ℤ) + (l.length : K) := by
  induction l with
  | nil => simp
  | cons a l ih =>
      rw [List.map_cons, List.sum_cons, List.sum_cons, Int.cast_add, List.length_cons, Nat.cast_add, Nat.cast_one]
      have hhead : a ≤ ⌊a⌋ + 1 := (Int.lt_floor_add_one a).le
      linarith

/-- Each part loses less than one, so all of them lose less than their number. -/
theorem sum_lt_sum_floor {l : List K} (hne : l ≠ []) : l.sum < ((l.map Int.floor).sum : ℤ) + (l.length : K) := by
  cases l with
  | nil => exact absurd rfl hne
  | cons a l =>
      rw [List.map_cons, List.sum_cons, List.sum_cons, Int.cast_add, List.length_cons, Nat.cast_add, Nat.cast_one]
      have hhead : a < ⌊a⌋ + 1 := Int.lt_floor_add_one a
      have htail := sum_le_sum_floor l
      linarith

/-- What the parts of a whole amount lose together is not negative and less than their number. -/
theorem leftover_bounds {l : List K} {total : ℤ} (hsum : l.sum = total) (hne : l ≠ []) :
    0 ≤ total - (l.map Int.floor).sum ∧ total - (l.map Int.floor).sum < l.length := by
  have hle := sum_floor_le l
  have hlt := sum_lt_sum_floor hne
  rw [hsum] at hle hlt
  have hle' : (l.map Int.floor).sum ≤ total := by exact_mod_cast hle
  have hlt' : total < (l.map Int.floor).sum + l.length := by exact_mod_cast hlt
  omega

end Floors

end Quantframe.Lib.Apportion
