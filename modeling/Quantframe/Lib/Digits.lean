import Mathlib.Algebra.GroupWithZero.Nat
import Mathlib.Data.Char
import Mathlib.Data.List.Lex
import Mathlib.Data.List.Range
import Mathlib.Order.Lattice
import Mathlib.Tactic.Push

/-!
# Numbers with leading zeros

Numbers written with the same number of digits order as texts as they do as numbers.
-/

namespace Quantframe.Lib

/-! ### Texts that begin differently -/

section Lexicographic

variable {α : Type} [LinearOrder α] {u v s t : List α}

theorem append_lt_append (h : u < v) (hlength : u.length = v.length) (s t : List α) : u ++ s < v ++ t := by
  induction u generalizing v with
  | nil =>
      cases v with
      | nil => exact absurd h (lt_irrefl _)
      | cons b v => cases hlength
  | cons a u ih =>
      cases v with
      | nil => cases hlength
      | cons b v =>
          rw [List.cons_append, List.cons_append, List.cons_lt_cons_iff]
          rcases List.cons_lt_cons_iff.mp h with hab | ⟨rfl, hrest⟩
          · exact .inl hab
          · exact .inr ⟨rfl, ih hrest (Nat.succ.inj hlength)⟩

/-- A separator below everything that follows a common beginning. -/
theorem append_sep_lt {sep : α} (h : u < v) (hsep : ∀ a ∈ v, sep < a) (s t : List α) :
    u ++ sep :: s < v ++ sep :: t := by
  induction u generalizing v with
  | nil =>
      cases v with
      | nil => exact absurd h (lt_irrefl _)
      | cons b v =>
          rw [List.nil_append, List.cons_append, List.cons_lt_cons_iff]
          exact .inl (hsep b List.mem_cons_self)
  | cons a u ih =>
      cases v with
      | nil => exact absurd h (List.not_lt_nil _)
      | cons b v =>
          rw [List.cons_append, List.cons_append, List.cons_lt_cons_iff]
          rcases List.cons_lt_cons_iff.mp h with hab | ⟨rfl, hrest⟩
          · exact .inl hab
          · exact .inr ⟨rfl, ih hrest fun c hc => hsep c (List.mem_cons_of_mem _ hc)⟩

end Lexicographic

/-- A sequence ascends when each of its values is below the next. -/
theorem pairwise_map_range {α : Type} [Preorder α] {n : Nat} {f : Nat → α} :
    ((List.range n).map f).Pairwise (· < ·) ↔ ∀ i, i + 1 < n → f i < f (i + 1) := by
  rw [← List.isChain_iff_pairwise, List.isChain_map, List.isChain_range]
  constructor
  · intro h i hi
    exact h i (by omega)
  · intro h i hi
    exact h i (by omega)

/-! ### Digits -/

/-- The last `width` digits of a number. -/
def fixedDigits : Nat → Nat → List Char
  | 0, _ => []
  | width + 1, n => fixedDigits width (n / 10) ++ [Nat.digitChar (n % 10)]

section Digits

variable {width m n : Nat}

@[simp] theorem length_fixedDigits (width n : Nat) : (fixedDigits width n).length = width := by
  induction width generalizing n with
  | zero => rfl
  | succ width ih => rw [fixedDigits, List.length_append, ih, List.length_singleton]

theorem fixedDigits_zero (width : Nat) : fixedDigits width 0 = List.replicate width '0' := by
  induction width with
  | zero => rfl
  | succ width ih => rw [fixedDigits, Nat.zero_div, ih, List.replicate_succ']; rfl

theorem leftpad_toDigits (h : n < 10 ^ (width + 1)) :
    (Nat.toDigits 10 n).leftpad (width + 1) '0' = fixedDigits (width + 1) n := by
  induction width generalizing n with
  | zero =>
      rw [Nat.toDigits_of_lt_base (by omega), fixedDigits, fixedDigits, Nat.mod_eq_of_lt (by omega)]
      rfl
  | succ width ih =>
      by_cases hsmall : n < 10
      · rw [Nat.toDigits_of_lt_base hsmall, fixedDigits, Nat.div_eq_of_lt hsmall, Nat.mod_eq_of_lt hsmall,
          fixedDigits_zero]
        rfl
      · have hten : n / 10 < 10 ^ (width + 1) := by
          rw [Nat.div_lt_iff_lt_mul (by decide), ← Nat.pow_succ]
          exact h
        rw [Nat.toDigits_of_base_le (by decide) (by omega), fixedDigits, ← ih hten, List.leftpad, List.leftpad,
          List.length_append, List.length_singleton, Nat.add_sub_add_right, List.append_assoc]

theorem leftpad_toDigits_inj (h : (Nat.toDigits 10 m).leftpad width '0' = (Nat.toDigits 10 n).leftpad width '0') :
    m = n := by
  have hvalue : ∀ k, Nat.ofDigitChars 10 ((Nat.toDigits 10 k).leftpad width '0') 0 = k := by
    intro k
    rw [List.leftpad, Nat.ofDigitChars_append, Nat.ofDigitChars_replicate_zero, Nat.mul_zero,
      Nat.ofDigitChars_ten_toDigits]
  rw [← hvalue m, h, hvalue n]

/-- Padding adds digits. -/
theorem isDigit_leftpad {c : Char} (h : c ∈ (Nat.toDigits 10 n).leftpad width '0') : c.isDigit = true := by
  rw [List.leftpad, List.mem_append, List.mem_replicate] at h
  rcases h with ⟨-, rfl⟩ | hdigit
  · rfl
  · exact Nat.isDigit_of_mem_toDigits (by decide) (by decide) hdigit

theorem digitChar_lt (h : m < n) (hn : n < 10) : Nat.digitChar m < Nat.digitChar n := by
  rw [Char.lt_def, UInt32.lt_iff_toNat_lt]
  change (Nat.digitChar m).toNat < (Nat.digitChar n).toNat
  rw [Nat.toNat_digitChar_of_lt_ten (by omega), Nat.toNat_digitChar_of_lt_ten hn]
  omega

theorem fixedDigits_lt (h : m < n) (hn : n < 10 ^ width) : fixedDigits width m < fixedDigits width n := by
  induction width generalizing m n with
  | zero => omega
  | succ width ih =>
      rw [fixedDigits, fixedDigits]
      have hten : n / 10 < 10 ^ width := by
        rw [Nat.div_lt_iff_lt_mul (by decide), ← Nat.pow_succ]
        exact hn
      rcases Nat.lt_or_eq_of_le (Nat.div_le_div_right (le_of_lt h) : m / 10 ≤ n / 10) with hless | heq
      · exact append_lt_append (ih hless hten) (by rw [length_fixedDigits, length_fixedDigits]) _ _
      · rw [heq]
        refine List.append_left_lt (List.cons_lt_cons_iff.mpr (.inl (digitChar_lt ?_ ?_)))
        · omega
        · omega

end Digits

end Quantframe.Lib
