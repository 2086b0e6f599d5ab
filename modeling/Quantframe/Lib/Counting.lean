import Mathlib.Data.List.Basic

/-! Counting the members of a list that one update changes. -/

namespace Quantframe.Lib

variable {α : Type*} {p : α → Bool} {l : List α} {i : Nat} {a b : α}

/-- Replacing one member moves a count by that member alone. -/
theorem countP_set_add (h : l[i]? = some a) :
    (l.set i b).countP p + (if p a then 1 else 0) = l.countP p + (if p b then 1 else 0) := by
  induction l generalizing i with
  | nil => cases h
  | cons x l ih =>
      cases i with
      | zero =>
          cases h
          simp only [List.set_cons_zero, List.countP_cons]
          omega
      | succ i =>
          have := ih (i := i) h
          simp only [List.set_cons_succ, List.countP_cons]
          omega

theorem countP_pos_of_getElem? (h : l[i]? = some a) (hp : p a = true) : 0 < l.countP p :=
  List.countP_pos_iff.mpr ⟨a, List.mem_of_getElem? h, hp⟩

theorem exists_getElem?_of_countP_pos (h : 0 < l.countP p) :
    ∃ (i : Nat) (a : α), l[i]? = some a ∧ p a = true := by
  obtain ⟨a, hmem, hp⟩ := List.countP_pos_iff.mp h
  obtain ⟨i, hi⟩ := List.getElem?_of_mem hmem
  exact ⟨i, a, hi, hp⟩

end Quantframe.Lib
