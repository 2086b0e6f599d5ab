import Mathlib.Data.Finset.Card
import Mathlib.Data.Finset.Max
import Mathlib.Data.Finset.Union

/-!
# Keeping the greatest

The greatest members of a set, and the greatest of those beyond them that have a property. What is left out once
is left out of every larger set, so leaving it out early changes no later choice.
-/

namespace Quantframe.Lib

variable {α : Type*} [LinearOrder α]

/-- How many members are greater. -/
def above (s : Finset α) (x : α) : Nat := (s.filter fun y => x < y).card

/-- The `n` greatest members. -/
def top (n : Nat) (s : Finset α) : Finset α := s.filter fun x => above s x < n

/-- The `n` greatest members, and the `m` greatest of the rest that have the property. -/
def retained (n m : Nat) (p : α → Prop) [DecidablePred p] (s : Finset α) : Finset α :=
  top n s ∪ top m ((s \ top n s).filter p)

variable {s t d : Finset α} {x y : α} {n m : Nat}

theorem mem_top : x ∈ top n s ↔ x ∈ s ∧ above s x < n := Finset.mem_filter

theorem top_subset : top n s ⊆ s := Finset.filter_subset _ _

theorem above_mono (h : s ⊆ t) (x : α) : above s x ≤ above t x := Finset.card_le_card (Finset.filter_subset_filter _ h)

theorem above_antitone (s : Finset α) (h : x ≤ y) : above s y ≤ above s x :=
  Finset.card_le_card (Finset.monotone_filter_right s fun _ _ hy => h.trans_lt hy)

theorem above_lt_card (hx : x ∈ s) : above s x < s.card :=
  Finset.card_lt_card ⟨Finset.filter_subset _ _, fun h => lt_irrefl x (Finset.mem_filter.mp (h hx)).2⟩

theorem above_lt (hy : y ∈ s) (h : x < y) : above s y < above s x := by
  refine Finset.card_lt_card ⟨Finset.monotone_filter_right s fun _ _ hz => h.trans hz, fun hsub => ?_⟩
  exact lt_irrefl y (Finset.mem_filter.mp (hsub (Finset.mem_filter.mpr ⟨hy, h⟩))).2

theorem above_injOn (s : Finset α) : Set.InjOn (above s) s := by
  intro x hx y hy h
  rcases lt_trichotomy x y with hlt | heq | hlt
  · exact absurd h.symm (above_lt hy hlt).ne
  · exact heq
  · exact absurd h (above_lt hx hlt).ne

/-- Each place below the size of the set is taken. -/
theorem image_above (s : Finset α) : s.image (above s) = Finset.range s.card := by
  refine Finset.eq_of_subset_of_card_le ?_ ?_
  · intro i hi
    obtain ⟨x, hx, rfl⟩ := Finset.mem_image.mp hi
    exact Finset.mem_range.mpr (above_lt_card hx)
  · rw [Finset.card_range, Finset.card_image_of_injOn (above_injOn s)]

theorem card_top (h : n ≤ s.card) : (top n s).card = n := by
  have himage : (top n s).image (above s) = Finset.range n := by
    ext i
    rw [Finset.mem_image, Finset.mem_range]
    constructor
    · rintro ⟨x, hx, rfl⟩
      exact (mem_top.mp hx).2
    · intro hi
      have hmem : i ∈ s.image (above s) := by
        rw [image_above]
        exact Finset.mem_range.mpr (hi.trans_le h)
      obtain ⟨x, hx, rfl⟩ := Finset.mem_image.mp hmem
      exact ⟨x, mem_top.mpr ⟨hx, hi⟩, rfl⟩
  rw [← Finset.card_image_of_injOn ((above_injOn s).mono (Finset.coe_subset.mpr top_subset)), himage,
    Finset.card_range]

/-- A member of a larger set's greatest is one of the smaller set's. -/
theorem top_of_subset (h : s ⊆ t) (hx : x ∈ s) (htop : x ∈ top n t) : x ∈ top n s :=
  mem_top.mpr ⟨hx, (above_mono h x).trans_lt (mem_top.mp htop).2⟩

/-- A subset that has the greatest members has them as its own. -/
theorem top_eq_of_subset (h : top n s ⊆ d) (hd : d ⊆ s) : top n d = top n s := by
  ext x
  constructor
  · intro hx
    obtain ⟨hxd, hlt⟩ := mem_top.mp hx
    refine mem_top.mpr ⟨hd hxd, ?_⟩
    by_contra hge
    have hge : n ≤ above s x := Nat.le_of_not_lt hge
    have hbelow : top n s ⊆ d.filter fun y => x < y := by
      intro y hy
      refine Finset.mem_filter.mpr ⟨h hy, lt_of_not_ge fun hle => ?_⟩
      exact absurd ((above_antitone s hle).trans_lt (mem_top.mp hy).2) (Nat.not_lt.mpr hge)
    have hcard := Finset.card_le_card hbelow
    rw [card_top (hge.trans (above_lt_card (hd hxd)).le)] at hcard
    exact absurd hlt (Nat.not_lt.mpr hcard)
  · intro hx
    exact top_of_subset hd (h hx) hx

section Retained

variable {p : α → Prop} [DecidablePred p]

theorem retained_subset : retained n m p s ⊆ s := by
  refine Finset.union_subset top_subset (top_subset.trans ?_)
  exact (Finset.filter_subset _ _).trans Finset.sdiff_subset

/-- A set between the retained members and the whole retains the same. -/
theorem retained_eq_of_subset (h : retained n m p s ⊆ d) (hd : d ⊆ s) : retained n m p d = retained n m p s := by
  have htop : top n d = top n s := top_eq_of_subset (Finset.union_subset_left h) hd
  have hrest : top m ((d \ top n d).filter p) = top m ((s \ top n s).filter p) := by
    rw [htop]
    refine top_eq_of_subset ?_ (Finset.filter_subset_filter _ (Finset.sdiff_subset_sdiff hd Finset.Subset.rfl))
    intro x hx
    obtain ⟨hold, hp⟩ := Finset.mem_filter.mp (top_subset hx)
    exact Finset.mem_filter.mpr ⟨Finset.mem_sdiff.mpr ⟨Finset.union_subset_right h hx, (Finset.mem_sdiff.mp hold).2⟩, hp⟩
  rw [retained, retained, hrest, htop]

/-- What a larger set retains of a smaller one, the smaller one retains. -/
theorem retained_of_subset (h : s ⊆ t) (hx : x ∈ s) (hret : x ∈ retained n m p t) : x ∈ retained n m p s := by
  by_cases htop : x ∈ top n s
  · exact Finset.mem_union_left _ htop
  · rcases Finset.mem_union.mp hret with hret | hret
    · exact absurd (top_of_subset h hx hret) htop
    · obtain ⟨-, hp⟩ := Finset.mem_filter.mp (top_subset hret)
      refine Finset.mem_union_right _ (top_of_subset ?_ (Finset.mem_filter.mpr ⟨Finset.mem_sdiff.mpr ⟨hx, htop⟩, hp⟩) hret)
      refine Finset.filter_subset_filter _ fun y hy => ?_
      obtain ⟨hy, hnot⟩ := Finset.mem_sdiff.mp hy
      exact Finset.mem_sdiff.mpr ⟨h hy, fun hytop => hnot (top_of_subset h hy hytop)⟩

theorem retained_union_subset (h : retained n m p s ⊆ d) (t : Finset α) : retained n m p (s ∪ t) ⊆ d ∪ t := by
  intro x hx
  rcases Finset.mem_union.mp (retained_subset hx) with hxs | hxt
  · exact Finset.mem_union_left _ (h (retained_of_subset Finset.subset_union_left hxs hx))
  · exact Finset.mem_union_right _ hxt

/-- Deciding again after more has come is deciding once over everything. -/
theorem retained_union (h : retained n m p s ⊆ d) (hd : d ⊆ s) (t : Finset α) :
    retained n m p (d ∪ t) = retained n m p (s ∪ t) :=
  retained_eq_of_subset (retained_union_subset h t) (Finset.union_subset_union_left hd)

end Retained

/-! ### Lists in decreasing order -/

theorem above_insert_self {a : α} (h : ∀ x ∈ s, x < a) : above (insert a s) a = 0 := by
  refine Finset.card_eq_zero.mpr (Finset.filter_eq_empty_iff.mpr fun y hy => ?_)
  rcases Finset.mem_insert.mp hy with rfl | hy
  · exact lt_irrefl y
  · exact (h y hy).asymm

theorem above_insert {a : α} (h : ∀ x ∈ s, x < a) (hx : x ∈ s) : above (insert a s) x = above s x + 1 := by
  rw [above, Finset.filter_insert, if_pos (h x hx), Finset.card_insert_of_notMem]
  · rfl
  · exact fun hmem => lt_irrefl a (h a (Finset.mem_filter.mp hmem).1)

/-- In decreasing order the first members are the greatest. -/
theorem toFinset_take {l : List α} (h : l.Pairwise fun a b => b < a) (n : Nat) :
    (l.take n).toFinset = top n l.toFinset := by
  induction l generalizing n with
  | nil =>
      rw [List.take_nil]
      exact (Finset.filter_empty _).symm
  | cons a l ih =>
      obtain ⟨hhead, hrest⟩ := List.pairwise_cons.mp h
      have hlt : ∀ x ∈ l.toFinset, x < a := fun x hx => hhead x (List.mem_toFinset.mp hx)
      cases n with
      | zero =>
          ext x
          simp [mem_top]
      | succ n =>
          ext x
          rw [List.take_succ_cons, List.toFinset_cons, List.toFinset_cons, ih hrest, Finset.mem_insert, mem_top,
            mem_top, Finset.mem_insert]
          constructor
          · rintro (rfl | ⟨hx, hn⟩)
            · exact ⟨.inl rfl, by rw [above_insert_self hlt]; exact Nat.succ_pos n⟩
            · exact ⟨.inr hx, by rw [above_insert hlt hx]; exact Nat.succ_lt_succ hn⟩
          · rintro ⟨rfl | hx, hn⟩
            · exact .inl rfl
            · rw [above_insert hlt hx] at hn
              exact .inr ⟨hx, Nat.lt_of_succ_lt_succ hn⟩

theorem toFinset_drop {l : List α} (h : l.Pairwise fun a b => b < a) (n : Nat) :
    (l.drop n).toFinset = l.toFinset \ top n l.toFinset := by
  have hnodup : (l.take n ++ l.drop n).Nodup := by
    rw [List.take_append_drop]
    exact h.imp fun hlt => hlt.ne'
  have hdisjoint := List.disjoint_of_nodup_append hnodup
  ext x
  rw [← toFinset_take h, Finset.mem_sdiff, List.mem_toFinset, List.mem_toFinset, List.mem_toFinset]
  constructor
  · intro hx
    exact ⟨List.mem_of_mem_drop hx, fun htake => hdisjoint htake hx⟩
  · rintro ⟨hx, hnot⟩
    rw [← List.take_append_drop n l] at hx
    exact (List.mem_append.mp hx).resolve_left hnot

end Quantframe.Lib
