import Mathlib.Algebra.Order.BigOperators.Group.List
import Mathlib.Data.List.Sort

/-!
# The first of a ranking

A list in the order of a rank is fixed by its members where no two of them have the same rank, and its first `k` have
the greatest total of any `k`.
-/

namespace Quantframe.Lib.Ranking

open scoped List

variable {α β M : Type*}

section Order

variable [LinearOrder β] {rank : α → β} {l m : List α}

/-- The rank tells the members apart. -/
def Separates (rank : α → β) (l : List α) : Prop := ∀ a ∈ l, ∀ b ∈ l, rank a = rank b → a = b

theorem eq_of_perm (hseparates : Separates rank l) (hl : l.Pairwise fun a b => rank a ≤ rank b)
    (hm : m.Pairwise fun a b => rank a ≤ rank b) (hperm : l ~ m) : l = m := by
  apply hperm.eq_of_pairwise ?_ hl hm
  intro a b ha hb hab hba
  exact hseparates a ha b (hperm.mem_iff.mpr hb) (le_antisymm hab hba)

/-- No rank is shared, so the order is strict. -/
theorem pairwise_lt (hseparates : Separates rank l) (hnodup : l.Nodup)
    (hl : l.Pairwise fun a b => rank a ≤ rank b) : l.Pairwise fun a b => rank a < rank b := by
  apply (List.Pairwise.and hl hnodup).imp_of_mem
  intro a b ha hb hab
  exact lt_of_le_of_ne hab.1 fun heq => hab.2 (hseparates a ha b hb heq)

end Order

section Total

variable [AddCommMonoid M] [PartialOrder M] [IsOrderedAddMonoid M] {value : α → M} {l m : List α} {k : Nat}

/-- No other selection of as many members has a greater total than the first of them in descending order. -/
theorem sum_le_sum_take (hl : l.Pairwise fun a b => value b ≤ value a) (hm : m <+~ l)
    (hlength : m.length = (l.take k).length) : (m.map value).sum ≤ ((l.take k).map value).sum := by
  classical
  induction l generalizing m k with
  | nil =>
      rw [List.subperm_nil] at hm
      subst hm
      rw [List.take_nil]
  | cons a l ih =>
      obtain ⟨hfirst, hrest⟩ := List.pairwise_cons.mp hl
      cases k with
      | zero =>
          rw [List.take_zero, List.length_nil, List.length_eq_zero_iff] at hlength
          subst hlength
          rw [List.take_zero]
      | succ k =>
          rw [List.take_succ_cons, List.length_cons] at hlength
          -- one member of the selection stands for the first of the list
          obtain ⟨b, hb, hvalue, hothers⟩ : ∃ b ∈ m, value b ≤ value a ∧ m.erase b <+~ l := by
            have herase := hm.erase a
            rw [List.erase_cons_head] at herase
            by_cases ha : a ∈ m
            · exact ⟨a, ha, le_refl _, herase⟩
            · obtain ⟨b, hb⟩ := List.exists_mem_of_length_pos (by omega : 0 < m.length)
              rw [List.erase_of_not_mem ha] at herase
              exact ⟨b, hb, hfirst b (herase.subset hb), (m.erase_subperm b).trans herase⟩
          have hperm := List.perm_cons_erase hb
          have hcount : (m.erase b).length = (l.take k).length := by
            rw [List.length_erase_of_mem hb]
            omega
          calc (m.map value).sum = value b + ((m.erase b).map value).sum := by
                rw [(hperm.map value).sum_eq, List.map_cons, List.sum_cons]
            _ ≤ value a + ((l.take k).map value).sum := add_le_add hvalue (ih hrest hothers hcount)
            _ = (((a :: l).take (k + 1)).map value).sum := by
                rw [List.take_succ_cons, List.map_cons, List.sum_cons]

end Total

end Quantframe.Lib.Ranking
