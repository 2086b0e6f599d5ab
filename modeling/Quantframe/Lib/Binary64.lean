import Mathlib.Algebra.Order.Field.Power
import Mathlib.Algebra.Order.Field.Rat
import Mathlib.Data.Int.Log
import Mathlib.Data.Rat.Floor
import Mathlib.Tactic.FieldSimp
import Mathlib.Tactic.Linarith
import Mathlib.Tactic.NormNum
import Mathlib.Tactic.Positivity
import Mathlib.Tactic.Ring

/-!
# Doubles

A number is rounded to 53 significant bits, ties to even. Exponents are not bounded, so this is the rounding of numbers
that neither overflow nor underflow.
-/

namespace Quantframe.Lib.Binary64

/-- To an integer, ties to even. -/
def roundEven (q : ℚ) : ℤ :=
  if q - ⌊q⌋ < 1 / 2 then ⌊q⌋
  else if 1 / 2 < q - ⌊q⌋ then ⌊q⌋ + 1
  else if ⌊q⌋ % 2 = 0 then ⌊q⌋ else ⌊q⌋ + 1

/-- The distance between the doubles around a number. -/
def ulp (q : ℚ) : ℚ := 2 ^ (Int.log 2 |q| - 52)

def toF64 (q : ℚ) : ℚ := if q = 0 then 0 else roundEven (q / ulp q) * ulp q

section Rounding

variable {q : ℚ} {n : ℤ}

theorem roundEven_error (q : ℚ) : |(roundEven q : ℚ) - q| ≤ 1 / 2 := by
  have hlow := Int.floor_le q
  have hhigh := Int.lt_floor_add_one q
  rw [roundEven, abs_le]
  split
  · next h => exact ⟨by linarith, by linarith⟩
  · next h =>
      have hhalf : 1 / 2 ≤ q - ⌊q⌋ := not_lt.mp h
      split
      · next h' =>
          push_cast
          exact ⟨by linarith, by linarith⟩
      · next h' =>
          have hhalf' : q - ⌊q⌋ ≤ 1 / 2 := not_lt.mp h'
          split
          · exact ⟨by linarith, by linarith⟩
          · push_cast
            exact ⟨by linarith, by linarith⟩

/-- Rounding does not pass an integer. -/
theorem roundEven_le (h : q ≤ n) : roundEven q ≤ n := by
  have herror := (abs_le.mp (roundEven_error q)).2
  have hlt : (roundEven q : ℚ) < n + 1 := by linarith
  have hint : roundEven q < n + 1 := by exact_mod_cast hlt
  omega

theorem roundEven_intCast (n : ℤ) : roundEven n = n := by
  rw [roundEven, Int.floor_intCast, sub_self, if_pos (by norm_num)]

theorem ulp_pos (q : ℚ) : 0 < ulp q := by
  rw [ulp]
  positivity

theorem toF64_of_ne (h : q ≠ 0) : toF64 q = roundEven (q / ulp q) * ulp q := if_neg h

/-- The relative error is at most `2⁻⁵³`. -/
theorem toF64_error (h : 0 < q) : |toF64 q - q| ≤ q / 2 ^ 53 := by
  have hulp := ulp_pos q
  have hle : ulp q ≤ q / 2 ^ 52 := by
    have hlog := Int.zpow_log_le_self (b := 2) (by norm_num) (abs_pos.mpr h.ne')
    have hsplit : ulp q = (2 : ℚ) ^ Int.log 2 |q| / 2 ^ 52 := by
      rw [ulp, zpow_sub₀ (by norm_num)]
      norm_num
    rw [abs_of_pos h] at hlog
    rw [hsplit, abs_of_pos h]
    exact div_le_div_of_nonneg_right (by exact_mod_cast hlog) (by positivity)
  have hscaled : toF64 q - q = (roundEven (q / ulp q) - q / ulp q) * ulp q := by
    rw [toF64_of_ne h.ne', sub_mul, div_mul_cancel₀ _ hulp.ne']
  rw [hscaled, abs_mul, abs_of_pos hulp]
  calc |(roundEven (q / ulp q) : ℚ) - q / ulp q| * ulp q ≤ 1 / 2 * (q / 2 ^ 52) :=
        mul_le_mul (roundEven_error _) hle hulp.le (by norm_num)
    _ = q / 2 ^ 53 := by ring

theorem toF64_pos (h : 0 < q) : 0 < toF64 q := by
  have herror := (abs_le.mp (toF64_error h)).1
  linarith

/-- Below `2⁵³` the distance is one over a power of two. -/
theorem exists_ulp (h : 0 < q) (hlt : q < 2 ^ 53) : ∃ j : ℕ, ulp q = ((2 : ℚ) ^ j)⁻¹ := by
  have hlog : Int.log 2 q < 53 := (Int.lt_zpow_iff_log_lt (by norm_num) h).mp (by exact_mod_cast hlt)
  refine ⟨(52 - Int.log 2 q).toNat, ?_⟩
  have hexponent : Int.log 2 q - 52 = -((52 - Int.log 2 q).toNat : ℤ) := by omega
  rw [ulp, abs_of_pos h, hexponent, zpow_neg, zpow_natCast]

/-- Below `2⁵³` the integers are doubles, so rounding does not pass them. -/
theorem toF64_le (h : 0 < q) (hq : q ≤ n) (hn : n < 2 ^ 53) : toF64 q ≤ n := by
  have hlt : q < 2 ^ 53 := lt_of_le_of_lt hq (by exact_mod_cast hn)
  obtain ⟨j, hulp⟩ := exists_ulp h hlt
  have hpos : (0 : ℚ) < 2 ^ j := by positivity
  have hscaled : q / ulp q ≤ ((n * 2 ^ j : ℤ) : ℚ) := by
    rw [hulp, div_inv_eq_mul]
    push_cast
    exact mul_le_mul_of_nonneg_right hq hpos.le
  have hround : ((roundEven (q / ulp q) : ℤ) : ℚ) ≤ ((n * 2 ^ j : ℤ) : ℚ) := by
    exact_mod_cast roundEven_le hscaled
  calc toF64 q = roundEven (q / ulp q) * ulp q := toF64_of_ne h.ne'
    _ ≤ ((n * 2 ^ j : ℤ) : ℚ) * ulp q := mul_le_mul_of_nonneg_right hround (ulp_pos q).le
    _ = n := by
      rw [hulp]
      push_cast
      field_simp

theorem toF64_intCast (h : 0 < n) (hn : n < 2 ^ 53) : toF64 n = n := by
  have hpos : (0 : ℚ) < n := by exact_mod_cast h
  obtain ⟨j, hulp⟩ := exists_ulp hpos (by exact_mod_cast hn)
  have hscaled : (n : ℚ) / ulp n = ((n * 2 ^ j : ℤ) : ℚ) := by
    rw [hulp, div_inv_eq_mul]
    push_cast
    rfl
  rw [toF64_of_ne hpos.ne', hscaled, roundEven_intCast, ← hscaled, div_mul_cancel₀ _ (ulp_pos _).ne']

end Rounding

section Quotient

variable {q : ℚ} {a b : ℤ}

/-- The quotient rounds down by less than the distance to the next smaller multiple of `1 / b`. -/
theorem ceil_toF64_div (ha : 0 < a) (hlt : a < 2 ^ 53) (hb : 0 < b) :
    ⌈toF64 ((a : ℚ) / b)⌉ = ⌈(a : ℚ) / b⌉ := by
  have haq : (0 : ℚ) < a := by exact_mod_cast ha
  have hbq : (0 : ℚ) < b := by exact_mod_cast hb
  have hpos : (0 : ℚ) < a / b := div_pos haq hbq
  have hceil : ⌈(a : ℚ) / b⌉ ≤ a := by
    rw [Int.ceil_le, div_le_iff₀ hbq]
    exact_mod_cast le_mul_of_one_le_right ha.le hb
  rw [Int.ceil_eq_iff]
  constructor
  · have herror := (abs_le.mp (toF64_error hpos)).1
    have hsmall : (a : ℚ) / b / 2 ^ 53 < 1 / b := by
      have haq' : (a : ℚ) < 2 ^ 53 := by exact_mod_cast hlt
      rw [div_div, div_lt_div_iff₀ (by positivity) hbq]
      nlinarith
    -- what lies above an integer lies above it by `1 / b` at least
    have hstep : ((⌈(a : ℚ) / b⌉ : ℤ) : ℚ) - 1 + 1 / b ≤ a / b := by
      have hbelow : ((⌈(a : ℚ) / b⌉ - 1 : ℤ) : ℚ) < a / b := Int.lt_ceil.mp (by omega)
      rw [lt_div_iff₀ hbq] at hbelow
      have hint : (⌈(a : ℚ) / b⌉ - 1) * b < a := by exact_mod_cast hbelow
      have hint' : ((⌈(a : ℚ) / b⌉ - 1) * b + 1 : ℚ) ≤ a := by exact_mod_cast hint
      rw [le_div_iff₀ hbq, add_mul, one_div_mul_cancel hbq.ne']
      exact hint'
    linarith
  · exact toF64_le hpos (Int.le_ceil _) (by omega)

/-- A divisor of `2⁵³` or more stays above the dividend when it is rounded. -/
theorem le_toF64 (ha : a < 2 ^ 53) (hb : 2 ^ 53 ≤ b) : (a : ℚ) ≤ toF64 b := by
  have hbq : (2 : ℚ) ^ 53 ≤ b := by exact_mod_cast hb
  have haq : (a : ℚ) ≤ 2 ^ 53 - 1 := by exact_mod_cast (by omega : a ≤ 2 ^ 53 - 1)
  have herror := (abs_le.mp (toF64_error (q := b) (by linarith [show (0 : ℚ) < 2 ^ 53 by norm_num]))).1
  have hsplit : (b : ℚ) - b / 2 ^ 53 = b * (1 - 1 / 2 ^ 53) := by ring
  have hkeep : (2 : ℚ) ^ 53 * (1 - 1 / 2 ^ 53) ≤ b * (1 - 1 / 2 ^ 53) :=
    mul_le_mul_of_nonneg_right hbq (by norm_num)
  have hvalue : (2 : ℚ) ^ 53 * (1 - 1 / 2 ^ 53) = 2 ^ 53 - 1 := by norm_num
  linarith

theorem ceil_eq_one (h : 0 < q) (hle : q ≤ 1) : ⌈q⌉ = 1 := by
  rw [Int.ceil_eq_iff]
  exact ⟨by simpa using h, by simpa using hle⟩

/-- Below `2⁵³` the doubles count how often the divisor goes into the dividend. -/
theorem ceil_quotient (ha : 0 < a) (hlt : a < 2 ^ 53) (hb : 0 < b) :
    ⌈toF64 (toF64 a / toF64 b)⌉ = ⌈(a : ℚ) / b⌉ := by
  rw [toF64_intCast ha hlt]
  rcases lt_or_ge b (2 ^ 53) with hsmall | hlarge
  · rw [toF64_intCast hb hsmall]
    exact ceil_toF64_div ha hlt hb
  · have haq : (0 : ℚ) < a := by exact_mod_cast ha
    have hbq : (0 : ℚ) < b := by exact_mod_cast hb
    have hle := le_toF64 hlt hlarge
    have hpos : (0 : ℚ) < a / toF64 b := div_pos haq (toF64_pos hbq)
    have hone : (a : ℚ) / toF64 b ≤ (1 : ℤ) := by
      rw [Int.cast_one]
      exact (div_le_one (toF64_pos hbq)).mpr hle
    have hround : toF64 (a / toF64 b) ≤ 1 := by
      simpa using toF64_le hpos hone (by norm_num)
    have hexact : (a : ℚ) / b ≤ 1 := (div_le_one hbq).mpr (by exact_mod_cast (by omega : a ≤ b))
    rw [ceil_eq_one (toF64_pos hpos) hround, ceil_eq_one (div_pos haq hbq) hexact]

end Quotient

end Quantframe.Lib.Binary64
