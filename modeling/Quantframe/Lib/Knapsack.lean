import Mathlib.Algebra.BigOperators.Group.List.Basic
import Mathlib.Algebra.GroupWithZero.Nat
import Mathlib.Algebra.Order.Monoid.Defs
import Mathlib.Data.List.Basic
import Mathlib.Order.Bounds.Basic
import Mathlib.Order.Bounds.Image

/-!
# The sublists that fit

The totals that sublists reach within a capacity. The greatest of them, with one entry more at the end, is the one
without that entry or the greatest that leaves room for it.
-/

namespace Quantframe.Lib.Knapsack

variable {α V : Type}

/-! ### Totals -/

section Totals

variable [AddCommMonoid V] (weight : α → ℕ) (value : α → V) {l : List α} {a : α} {w : ℕ}

/-- The totals that sublists reach within a capacity. -/
def totals (l : List α) (w : ℕ) : Set V :=
  {v | ∃ s : List α, s.Sublist l ∧ (s.map weight).sum ≤ w ∧ (s.map value).sum = v}

theorem totals_nil : totals weight value [] w = {0} := by
  ext v
  constructor
  · rintro ⟨s, hs, -, rfl⟩
    rw [List.sublist_nil.mp hs]
    rfl
  · rintro rfl
    exact ⟨[], .slnil, Nat.zero_le w, rfl⟩

/-- A sublist ends with the last entry or does without it. -/
theorem totals_concat : totals weight value (l ++ [a]) w =
    totals weight value l w ∪
      {v | weight a ≤ w ∧ v ∈ (· + value a) '' totals weight value l (w - weight a)} := by
  ext v
  constructor
  · rintro ⟨s, hs, hfits, rfl⟩
    obtain ⟨s, last, rfl, hfront, hlast⟩ := List.sublist_append_iff.mp hs
    rcases List.sublist_singleton.mp hlast with rfl | rfl
    · rw [List.append_nil] at hfits ⊢
      exact .inl ⟨s, hfront, hfits, rfl⟩
    · simp only [List.map_append, List.map_cons, List.map_nil, List.sum_append, List.sum_cons, List.sum_nil,
        add_zero] at hfits ⊢
      exact .inr ⟨by omega, _, ⟨s, hfront, by omega, rfl⟩, rfl⟩
  · rintro (⟨s, hs, hfits, rfl⟩ | ⟨hroom, _, ⟨s, hs, hfits, rfl⟩, rfl⟩)
    · exact ⟨s, hs.trans (List.sublist_append_left _ _), hfits, rfl⟩
    · refine ⟨s ++ [a], hs.append (List.Sublist.refl _), ?_, ?_⟩
      · simp only [List.map_append, List.map_cons, List.map_nil, List.sum_append, List.sum_cons, List.sum_nil]
        omega
      · simp only [List.map_append, List.map_cons, List.map_nil, List.sum_append, List.sum_cons, List.sum_nil,
          add_zero]

end Totals

/-! ### The greatest total -/

section Best

variable [AddCommMonoid V] [LinearOrder V] (weight : α → ℕ) (value : α → V) {l : List α} {a : α} {w : ℕ} {u v : V}

def Best (l : List α) (w : ℕ) (v : V) : Prop := IsGreatest (totals weight value l w) v

variable {weight value}

theorem Best.nil : Best weight value [] w 0 := by
  rw [Best, totals_nil]
  exact isGreatest_singleton

/-- An entry that is too heavy changes nothing. -/
theorem Best.concat_heavy (hleft : Best weight value l w u) (hheavy : w < weight a) :
    Best weight value (l ++ [a]) w u := by
  have hempty : {v | weight a ≤ w ∧ v ∈ (· + value a) '' totals weight value l (w - weight a)} = ∅ :=
    Set.eq_empty_of_forall_notMem fun v hv => absurd hv.1 (not_le.mpr hheavy)
  rw [Best, totals_concat, hempty, Set.union_empty]
  exact hleft

theorem Best.concat [IsOrderedAddMonoid V] (hleft : Best weight value l w u)
    (htaken : Best weight value l (w - weight a) v) (hlight : weight a ≤ w) :
    Best weight value (l ++ [a]) w (max u (v + value a)) := by
  have hwith : IsGreatest {v | weight a ≤ w ∧ v ∈ (· + value a) '' totals weight value l (w - weight a)}
      (v + value a) := by
    have hmono : Monotone (· + value a) := fun x y hxy => add_le_add_left hxy (value a)
    have himage := hmono.map_isGreatest htaken
    exact ⟨⟨hlight, himage.1⟩, fun x hx => himage.2 hx.2⟩
  rw [Best, totals_concat]
  exact hleft.union hwith

theorem Best.le {s : List α} (h : Best weight value l w v) (hs : s.Sublist l) (hfits : (s.map weight).sum ≤ w) :
    (s.map value).sum ≤ v := h.2 ⟨s, hs, hfits, rfl⟩

end Best

/-! ### Two sublists that make up a list -/

/-- The entries that a mask marks so. -/
def masked (mask : List Bool) (mark : Bool) (l : List α) : List α :=
  ((l.zip mask).filter fun entry => entry.2 == mark).map Prod.fst

/-- One mask tells the entries of `s` from those of `t`, each in the order of the list. -/
def Parts (l s t : List α) : Prop :=
  ∃ mask : List Bool, mask.length = l.length ∧ s = masked mask true l ∧ t = masked mask false l

namespace Parts

variable {l s t : List α}

theorem nil : Parts ([] : List α) [] [] := ⟨[], rfl, rfl, rfl⟩

theorem consLeft (h : Parts l s t) (a : α) : Parts (a :: l) (a :: s) t := by
  obtain ⟨mask, hlength, rfl, rfl⟩ := h
  exact ⟨true :: mask, congrArg (· + 1) hlength, rfl, rfl⟩

theorem consRight (h : Parts l s t) (a : α) : Parts (a :: l) s (a :: t) := by
  obtain ⟨mask, hlength, rfl, rfl⟩ := h
  exact ⟨false :: mask, congrArg (· + 1) hlength, rfl, rfl⟩

/-- The first entry is one of the one or of the other. -/
theorem cons_cases {a : α} (h : Parts (a :: l) s t) :
    (∃ s', s = a :: s' ∧ Parts l s' t) ∨ ∃ t', t = a :: t' ∧ Parts l s t' := by
  obtain ⟨mask, hlength, rfl, rfl⟩ := h
  cases mask with
  | nil => cases hlength
  | cons mark mask =>
      have hlength' : mask.length = l.length := Nat.succ.inj hlength
      cases mark with
      | true => exact .inl ⟨masked mask true l, rfl, mask, hlength', rfl, rfl⟩
      | false => exact .inr ⟨masked mask false l, rfl, mask, hlength', rfl, rfl⟩

theorem sublist (h : Parts l s t) : s.Sublist l := by
  obtain ⟨mask, hlength, rfl, -⟩ := h
  have hfst : ((l.zip mask).map Prod.fst) = l := List.map_fst_zip hlength.ge
  have hsub : (masked mask true l).Sublist ((l.zip mask).map Prod.fst) := List.filter_sublist.map _
  rwa [hfst] at hsub

/-- An entry of the one may join the other. -/
theorem join {a : α} (h : Parts l s t) (ha : a ∈ t) :
    ∃ joined : List α, joined.Sublist l ∧ joined.Perm (a :: s) := by
  induction l generalizing s t with
  | nil =>
      obtain ⟨mask, -, -, rfl⟩ := h
      cases ha
  | cons b l ih =>
      rcases h.cons_cases with ⟨s', rfl, hrest⟩ | ⟨t', rfl, hrest⟩
      · obtain ⟨joined, hsub, hperm⟩ := ih hrest ha
        exact ⟨b :: joined, hsub.cons_cons b, (hperm.cons b).trans (.swap a b s')⟩
      · rcases List.mem_cons.mp ha with rfl | hlater
        · exact ⟨a :: s, hrest.sublist.cons_cons a, .refl _⟩
        · obtain ⟨joined, hsub, hperm⟩ := ih hrest hlater
          exact ⟨joined, hsub.cons b, hperm⟩

end Parts

end Quantframe.Lib.Knapsack
