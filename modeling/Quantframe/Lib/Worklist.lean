import Mathlib.Data.List.Sort
import Quantframe.Lib.Ranking

/-!
# Worklists

A list in the order of a rank, of which one element after another is taken off, a preferred one before the
others. What was taken and what is left are together the list there was, and under one preference the whole
order in which elements are taken is known beforehand.
-/

namespace Quantframe.Lib

open scoped List

variable {α β : Type*}

section Order

variable [LinearOrder β] (rank : α → β)

/-- The elements in the order of their rank. -/
def byRank (l : List α) : List α := l.mergeSort fun a b => decide (rank a ≤ rank b)

@[simp] theorem mem_byRank {l : List α} {a : α} : a ∈ byRank rank l ↔ a ∈ l := List.mem_mergeSort

theorem byRank_perm (l : List α) : byRank rank l ~ l := List.mergeSort_perm _ _

theorem pairwise_byRank (l : List α) : (byRank rank l).Pairwise fun a b => rank a ≤ rank b := by
  have hsorted : (byRank rank l).Pairwise fun a b => decide (rank a ≤ rank b) = true := by
    apply List.pairwise_mergeSort
    · intro a b c hab hbc
      exact decide_eq_true ((of_decide_eq_true hab).trans (of_decide_eq_true hbc))
    · intro a b
      simpa only [Bool.or_eq_true, decide_eq_true_eq] using le_total (rank a) (rank b)
  exact hsorted.imp fun hab => of_decide_eq_true hab

variable {rank}

/-- A list in order stays as it is. -/
theorem byRank_of_pairwise {l : List α} (h : l.Pairwise fun a b => rank a ≤ rank b) : byRank rank l = l :=
  List.mergeSort_of_pairwise (h.imp fun hab => decide_eq_true hab)

/-- Leaving elements out does not change the order of the others. -/
theorem byRank_filter {l : List α} (h : Ranking.Separates rank l) (p : α → Bool) :
    byRank rank (l.filter p) = (byRank rank l).filter p := by
  refine @Ranking.eq_of_perm α β _ rank _ _ ?_ ?_ ?_ ?_
  · intro a ha b hb
    rw [mem_byRank, List.mem_filter] at ha hb
    exact h a ha.1 b hb.1
  · exact pairwise_byRank rank _
  · exact (pairwise_byRank rank l).filter p
  · exact (byRank_perm rank _).trans ((byRank_perm rank l).symm.filter p)

/-- Whatever is found first among the first of a ranking has the least rank of all that could be found. -/
theorem rank_le_of_find? {l : List α} {p : α → Bool} {limit : Nat} {a b : α}
    (h : ((byRank rank l).take limit).find? p = some a) (hb : b ∈ l) (hpb : p b = true) : rank a ≤ rank b := by
  obtain ⟨-, before, after, htake, hbefore⟩ := List.find?_eq_some_iff_append.mp h
  have hsplit : byRank rank l = before ++ a :: (after ++ (byRank rank l).drop limit) := by
    have hall := List.take_append_drop limit (byRank rank l)
    rw [htake, List.append_assoc, List.cons_append] at hall
    exact hall.symm
  have hsorted := pairwise_byRank rank l
  have hmem : b ∈ byRank rank l := (mem_byRank rank).mpr hb
  rw [hsplit] at hsorted hmem
  rcases List.mem_append.mp hmem with hearly | hlate
  · have hnot := hbefore b hearly
    rw [hpb] at hnot
    cases hnot
  · rcases List.mem_cons.mp hlate with rfl | hrest
    · exact le_refl _
    · exact (List.pairwise_cons.mp (List.pairwise_append.mp hsorted).2.1).1 b hrest

end Order

/-! ### Taking off -/

/-- The first preferred element, or the first of all. -/
def takeNext (p : α → Bool) (pending : List α) : Option α := (pending.find? p).or pending.head?

theorem mem_of_takeNext {p : α → Bool} {pending : List α} {a : α} (h : takeNext p pending = some a) :
    a ∈ pending := by
  rcases Option.or_eq_some_iff.mp h with hfound | ⟨-, hhead⟩
  · exact List.mem_of_find?_eq_some hfound
  · exact List.mem_of_head? hhead

theorem takeNext_eq_none {p : α → Bool} {pending : List α} : takeNext p pending = none ↔ pending = [] := by
  constructor
  · intro h
    exact List.head?_eq_none_iff.mp (Option.or_eq_none_iff.mp h).2
  · rintro rfl
    rfl

variable [BEq α] [LawfulBEq α]

/-- The elements taken off a list one after another, each under a preference of its own, and what is left. -/
inductive Takes : List α → List ((α → Bool) × α) → List α → Prop
  | nil (pending : List α) : Takes pending [] pending
  | cons {pending rest : List α} {p : α → Bool} {a : α} {taken : List ((α → Bool) × α)} :
      takeNext p pending = some a → Takes (pending.erase a) taken rest → Takes pending ((p, a) :: taken) rest

namespace Takes

variable {pending rest : List α} {taken : List ((α → Bool) × α)}

/-- Nothing is taken twice and nothing is lost. -/
theorem perm (h : Takes pending taken rest) : taken.map Prod.snd ++ rest ~ pending := by
  induction h with
  | nil pending => exact List.Perm.refl _
  | cons first _ ih => exact (ih.cons _).trans (List.perm_cons_erase (mem_of_takeNext first)).symm

end Takes

/-- The preferred elements and then the others. -/
def preferredFirst (p : α → Bool) (pending : List α) : List α :=
  pending.filter p ++ pending.filter fun a => !p a

/-- The next element is the first of those. -/
theorem preferredFirst_cons {p : α → Bool} {pending : List α} {a : α} (h : takeNext p pending = some a) :
    preferredFirst p pending = a :: preferredFirst p (pending.erase a) := by
  rcases Option.or_eq_some_iff.mp h with hfound | ⟨hnone, hhead⟩
  · obtain ⟨hp, before, after, rfl, hbefore⟩ := List.find?_eq_some_iff_append.mp hfound
    have hout : a ∉ before := by
      intro ha
      have hnot := hbefore a ha
      rw [hp] at hnot
      cases hnot
    have hnone : before.filter p = [] := by
      rw [List.filter_eq_nil_iff]
      intro b hb hpb
      have hnot := hbefore b hb
      rw [hpb] at hnot
      cases hnot
    rw [List.erase_append_right _ hout, List.erase_cons_head]
    simp [preferredFirst, hnone, hp]
  · have hrest := List.find?_eq_none.mp hnone
    cases pending with
    | nil => cases hhead
    | cons b rest =>
        cases hhead
        rw [List.erase_cons_head]
        have hnil : rest.filter p = [] := by
          rw [List.filter_eq_nil_iff]
          intro b hb
          exact hrest b (List.mem_cons_of_mem _ hb)
        have ha : p a = false := by simpa using hrest a List.mem_cons_self
        simp [preferredFirst, hnil, ha]

/-- Under one preference the preferred elements come first, each kind in the order of the list. -/
theorem Takes.preferred {pending rest : List α} {taken : List ((α → Bool) × α)} {p : α → Bool}
    (h : Takes pending taken rest) (hsame : ∀ k ∈ taken, k.1 = p) :
    preferredFirst p pending = taken.map Prod.snd ++ preferredFirst p rest := by
  induction h with
  | nil pending => rfl
  | @cons pending rest q a taken first _ ih =>
      have hq : q = p := hsame (q, a) List.mem_cons_self
      subst hq
      have hrest := ih fun k hk => hsame k (List.mem_cons_of_mem _ hk)
      rw [preferredFirst_cons first, hrest, List.map_cons, List.cons_append]

/-- The elements with another key are those left when the one with the key is taken off. -/
theorem filter_ne_eq_erase {κ : Type*} [DecidableEq κ] {key : α → κ} {l : List α} {a : α} (hnodup : (l.map key).Nodup)
    (ha : a ∈ l) : (l.filter fun b => !decide (key b = key a)) = l.erase a := by
  rw [List.Nodup.erase_eq_filter hnodup.of_map]
  apply List.filter_congr
  intro b hb
  by_cases hsame : key b = key a
  · have heq := List.inj_on_of_nodup_map hnodup hb ha hsame
    simp [heq]
  · have hne : b ≠ a := fun heq => hsame (congrArg key heq)
    simp [hsame, hne]

/-! ### Loops -/

section Loop

variable {S C R : Type*} (call : S → C → R × S) (ok : Option Nat → R) (pending : S → C → List α) (prefer : C → α → Bool)

/-- What the calls of a loop take, each with the call. -/
def picks (s : S) : List C → List (C × α)
  | [] => []
  | c :: calls =>
      ((takeNext (prefer c) (pending s c)).map fun a => (c, a)).toList ++ picks (call s c).2 calls

/-- What they return. -/
def returned (s : S) : List C → List R
  | [] => []
  | c :: calls => (call s c).1 :: returned (call s c).2 calls

/-- The calls from a state with these elements pending take one off each, return how many there were before it, and
leave the last ones; with none pending they do nothing. -/
inductive Serves : S → List α → List C → List α → Prop
  | done (s : S) (left : List α) : Serves s left [] left
  | idle {s : S} {c : C} {calls : List C} {rest : List α} : pending s c = [] → call s c = (ok none, s) →
      Serves s [] calls rest → Serves s [] (c :: calls) rest
  | take {s : S} {c : C} {calls : List C} {a : α} {rest : List α} :
      takeNext (prefer c) (pending s c) = some a → (call s c).1 = ok (some (pending s c).length) →
      Serves (call s c).2 ((pending s c).erase a) calls rest → Serves s (pending s c) (c :: calls) rest

namespace Serves

variable {call ok pending prefer} {s : S} {left rest : List α} {calls : List C}

omit [LawfulBEq α] in
theorem takes (h : Serves call ok pending prefer s left calls rest) :
    Takes left ((picks call pending prefer s calls).map fun pick => (prefer pick.1, pick.2)) rest := by
  induction h with
  | done s left => exact .nil left
  | @idle s c calls rest hnone hcall _ ih =>
      rw [picks, hnone, hcall]
      exact ih
  | take htaken _ _ ih =>
      rw [picks, htaken]
      exact .cons htaken ih

/-- Nothing is taken twice, and what is not taken is left. -/
theorem perm (h : Serves call ok pending prefer s left calls rest) :
    (picks call pending prefer s calls).map Prod.snd ++ rest ~ left := by
  have hperm := h.takes.perm
  rwa [List.map_map] at hperm

/-- Every call takes an element while there is one. -/
theorem length_picks (h : Serves call ok pending prefer s left calls rest) :
    (picks call pending prefer s calls).length = min calls.length left.length := by
  induction h with
  | done s left => simp [picks]
  | @idle s c calls rest hnone hcall _ ih =>
      rw [picks, hnone, hcall]
      simpa [takeNext] using ih
  | @take s c calls a rest htaken _ _ ih =>
      have hpos := List.length_pos_of_mem (mem_of_takeNext htaken)
      rw [List.length_erase_of_mem (mem_of_takeNext htaken)] at ih
      rw [picks, htaken, List.length_append, ih]
      simp only [Option.map_some, Option.toList_some, List.length_cons, List.length_nil]
      omega

omit [BEq α] [LawfulBEq α] in
theorem call_of_mem_picks {pick : C × α} (h : pick ∈ picks call pending prefer s calls) : pick.1 ∈ calls := by
  induction calls generalizing s with
  | nil => cases h
  | cons c calls ih =>
      rcases List.mem_append.mp h with hfirst | hrest
      · rw [Option.mem_toList, Option.map_eq_some_iff] at hfirst
        obtain ⟨item, -, rfl⟩ := hfirst
        exact List.mem_cons_self
      · exact List.mem_cons_of_mem _ (ih hrest)

/-- Under one preference the preferred elements are taken first. -/
theorem preferred (h : Serves call ok pending prefer s left calls rest) {p : α → Bool}
    (hsame : ∀ c ∈ calls, prefer c = p) :
    preferredFirst p left = (picks call pending prefer s calls).map Prod.snd ++ preferredFirst p rest := by
  have hpreferred : ∀ k ∈ (picks call pending prefer s calls).map fun pick => (prefer pick.1, pick.2), k.1 = p := by
    intro k hk
    obtain ⟨pick, hpick, rfl⟩ := List.mem_map.mp hk
    exact hsame pick.1 (call_of_mem_picks hpick)
  have hfirst := h.takes.preferred hpreferred
  rwa [List.map_map] at hfirst

/-- As many calls as there were elements leave none. -/
theorem rest_eq_nil (h : Serves call ok pending prefer s left calls rest) (hall : left.length ≤ calls.length) :
    rest = [] := by
  have hlength := h.perm.length_eq
  rw [List.length_append, List.length_map, h.length_picks, min_eq_right hall] at hlength
  exact List.length_eq_zero_iff.mp (by omega)

end Serves

end Loop

end Quantframe.Lib
