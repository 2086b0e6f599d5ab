import Mathlib.Data.List.Dedup
import Mathlib.Data.List.Sort

/-! Distinct values in order, as the keys of an ordered map are. -/

namespace Quantframe.Lib

variable {α : Type*} [DecidableEq α]

/-- The values of a list, each once, in the order of `le`. -/
def distinct (le : α → α → Bool) (l : List α) : List α := l.dedup.mergeSort le

variable {le : α → α → Bool} {l : List α} {a : α}

@[simp] theorem mem_distinct : a ∈ distinct le l ↔ a ∈ l := by rw [distinct, List.mem_mergeSort, List.mem_dedup]

theorem nodup_distinct (le : α → α → Bool) (l : List α) : (distinct le l).Nodup :=
  (List.mergeSort_perm _ _).nodup_iff.mpr (List.nodup_dedup l)

/-- A comparison that orders the values. -/
structure Orders (le : α → α → Bool) : Prop where
  trans : ∀ a b c, le a b = true → le b c = true → le a c = true
  total : ∀ a b, (le a b || le b a) = true
  antisymm : ∀ a b, le a b = true → le b a = true → a = b

theorem Orders.pairwise_distinct (h : Orders le) (l : List α) : (distinct le l).Pairwise fun a b => le a b = true :=
  List.pairwise_mergeSort h.trans h.total _

/-- The list in order with these members is unique. -/
theorem Orders.eq_distinct (h : Orders le) {m : List α} (hsorted : m.Pairwise fun a b => le a b = true)
    (hnodup : m.Nodup) (hmem : ∀ a, a ∈ m ↔ a ∈ l) : m = distinct le l := by
  refine List.Perm.eq_of_pairwise (fun a b _ _ => h.antisymm a b) hsorted (h.pairwise_distinct l) ?_
  refine (List.perm_ext_iff_of_nodup hnodup (nodup_distinct le l)).mpr fun a => ?_
  rw [hmem, mem_distinct]

theorem Orders.filter_distinct (h : Orders le) (p : α → Bool) (l : List α) :
    (distinct le l).filter p = distinct le (l.filter p) := by
  refine h.eq_distinct ((h.pairwise_distinct l).filter p) ((nodup_distinct le l).filter p) fun a => ?_
  rw [List.mem_filter, mem_distinct, List.mem_filter]

omit [DecidableEq α] in
/-- Only one of the members contributes. -/
theorem flatMap_eq_of_nodup {β : Type*} {g : α → List β} (hnodup : l.Nodup)
    (hother : ∀ b ∈ l, b ≠ a → g b = []) (habsent : a ∉ l → g a = []) : l.flatMap g = g a := by
  induction l with
  | nil => exact (habsent List.not_mem_nil).symm
  | cons b l ih =>
      obtain ⟨hb, hnodup⟩ := List.nodup_cons.mp hnodup
      by_cases hab : b = a
      · subst hab
        have hrest : l.flatMap g = [] := by
          refine List.flatMap_eq_nil_iff.mpr fun c hc => hother c (List.mem_cons_of_mem _ hc) ?_
          exact fun hcb => hb (hcb ▸ hc)
        rw [List.flatMap_cons, hrest, List.append_nil]
      · rw [List.flatMap_cons, hother b List.mem_cons_self hab, List.nil_append]
        refine ih hnodup (fun c hc => hother c (List.mem_cons_of_mem _ hc)) fun hnot => habsent ?_
        exact fun hmem => (List.mem_cons.mp hmem).elim (fun h => hab h.symm) hnot

end Quantframe.Lib
