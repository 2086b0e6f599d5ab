import Mathlib.Algebra.BigOperators.Group.List.Basic
import Mathlib.Data.Int.ModEq

/-!
# Machine words

The arithmetic of `i64` and `usize` in a release build, where it wraps. A result that fits is the exact one.
-/

namespace Quantframe.Lib

def i64Min : Int := -9223372036854775808
def i64Max : Int := 9223372036854775807

/-- The number of 64-bit words. -/
abbrev words : Int := 18446744073709551616

/-- `n` as an `i64`. -/
def wrapI64 (n : Int) : Int := (n + 9223372036854775808) % words - 9223372036854775808

def saturateI64 (n : Int) : Int := max i64Min (min i64Max n)

def saturatingSub (a b : Int) : Int := saturateI64 (a - b)

/-- `n as usize`. -/
def asUsize (n : Int) : Nat := (n % words).toNat

def InI64 (n : Int) : Prop := i64Min ≤ n ∧ n ≤ i64Max

instance : DecidablePred InI64 := fun _ => inferInstanceAs (Decidable (_ ∧ _))

/-- `sum::<i64>()`. -/
def sumI64 (l : List Int) : Int := l.foldl (fun total n => wrapI64 (total + n)) 0

variable {n m : Int} {l : List Int}

theorem wrapI64_of_inI64 (h : InI64 n) : wrapI64 n = n := by
  unfold InI64 i64Min i64Max at h
  unfold wrapI64 words
  omega

theorem wrapI64_inI64 (n : Int) : InI64 (wrapI64 n) := by
  unfold InI64 i64Min i64Max wrapI64 words
  omega

theorem wrapI64_modEq (n : Int) : wrapI64 n ≡ n [ZMOD words] := by
  unfold Int.ModEq wrapI64 words
  omega

/-- A word stands for one `i64`. -/
theorem eq_wrapI64 (h : m ≡ n [ZMOD words]) (hm : InI64 m) : m = wrapI64 n := by
  unfold Int.ModEq words at h
  unfold InI64 i64Min i64Max at hm
  unfold wrapI64 words
  omega

theorem wrapI64_congr (h : m ≡ n [ZMOD words]) : wrapI64 m = wrapI64 n :=
  eq_wrapI64 ((wrapI64_modEq m).trans h) (wrapI64_inI64 m)

/-- What wraps again on the way wraps once. -/
theorem wrapI64_add_left (m n : Int) : wrapI64 (wrapI64 m + n) = wrapI64 (m + n) :=
  wrapI64_congr ((wrapI64_modEq m).add_right n)

theorem wrapI64_mul_left (m n : Int) : wrapI64 (wrapI64 m * n) = wrapI64 (m * n) :=
  wrapI64_congr ((wrapI64_modEq m).mul_right n)

theorem wrapI64_eq_iff : wrapI64 n = n ↔ InI64 n :=
  ⟨fun h => h ▸ wrapI64_inI64 n, wrapI64_of_inI64⟩

/-- Wrapping moves a value by whole words. -/
theorem wrapI64_eq_sub (n : Int) : ∃ k, wrapI64 n = n - k * words := by
  refine ⟨(n + 9223372036854775808) / words, ?_⟩
  unfold wrapI64 words
  omega

theorem wrapI64_le (h : 0 ≤ n) : wrapI64 n ≤ n := by
  unfold wrapI64 words
  omega

theorem sumI64_eq (l : List Int) : sumI64 l = wrapI64 l.sum := by
  have hfold : ∀ (l : List Int) (total : Int),
      l.foldl (fun total n => wrapI64 (total + n)) (wrapI64 total) = wrapI64 (total + l.sum) := by
    intro l
    induction l with
    | nil =>
        intro total
        rw [List.foldl_nil, List.sum_nil, Int.add_zero]
    | cons n l ih =>
        intro total
        rw [List.foldl_cons, wrapI64_add_left, ih, List.sum_cons, Int.add_assoc]
  have hzero : (0 : Int) = wrapI64 0 := rfl
  rw [sumI64, hzero, hfold, Int.zero_add]

theorem asUsize_of_nonneg (h : 0 ≤ n) (hn : n ≤ i64Max) : asUsize n = n.toNat := by
  unfold i64Max at hn
  unfold asUsize words
  omega

/-- Below zero a word passes every length. -/
theorem lt_asUsize_of_neg (h : n < 0) (hn : i64Min ≤ n) : i64Max < asUsize n := by
  unfold i64Min at hn
  unfold asUsize words i64Max
  omega

end Quantframe.Lib
