import Mathlib.Order.Bounds.Basic
import Mathlib.Algebra.Order.Ring.Int
import Quantframe.Lib.Words
import Quantframe.Trades.Types

/-!
# Sets of parts

Folding the parts of a trade into set items. What a fold does is said over the quantity of each slug: it takes
from the parts and gives to the root.
-/

namespace Quantframe.Trades

open Lib

/-- One part of a set and how many of it the set needs. -/
structure SetPart where
  slug : String
  quantity : Int
  deriving DecidableEq, Repr

/-- Parts per set-root slug. -/
abbrev PartsMap := String → Option (List SetPart)

/-- What a set takes of a part. -/
def SetPart.need (part : SetPart) : Int := max part.quantity 1

/-- The quantity of a slug, over all its lines. -/
def quantityOf (items : List ResolvedItem) (slug : String) : Int :=
  ((items.filter fun i => i.slug = slug).map ResolvedItem.quantity).sum

/-- The same as the code adds it up. -/
def countOf (items : List ResolvedItem) (slug : String) : Int :=
  sumI64 ((items.filter fun i => i.slug = slug).map ResolvedItem.quantity)

/-- The loop over the lines of a part. -/
def takePart (slug : String) : Int → List ResolvedItem → List ResolvedItem
  | _, [] => []
  | remaining, item :: items =>
      if item.slug = slug then
        let take := min remaining item.quantity
        { item with quantity := item.quantity - take } :: takePart slug (remaining - take) items
      else item :: takePart slug remaining items

/-- How many sets the items make. -/
def setsOf (items : List ResolvedItem) (partSlugs : List SetPart) : Int :=
  (partSlugs.map fun part => (countOf items part.slug).tdiv part.need).min?.getD 0

/-- The parts of so many sets are taken from the items. -/
def takeParts (sets : Int) (partSlugs : List SetPart) (items : List ResolvedItem) : List ResolvedItem :=
  partSlugs.foldl (fun items part => takePart part.slug (wrapI64 (part.need * sets)) items) items

def setItem (root : CacheTradableItem) (sets : Int) : ResolvedItem where
  name := root.name
  slug := root.wfmUrl
  wfmId := root.wfmId
  itemName := root.name
  subType := none
  quantity := sets
  price := 0
  matchedBy := "set"

/-- The parts of a root, without itself. -/
def partSlugsOf (parts : PartsMap) (root : String) : List SetPart :=
  ((parts root).getD []).filter fun part => part.slug ≠ root

def foldRoot (parts : PartsMap) (index : List CacheTradableItem) (items : List ResolvedItem) (root : String) :
    List ResolvedItem :=
  match parts root, bySlug index root with
  | some _, some rootItem =>
      let partSlugs := partSlugsOf parts root
      if partSlugs.isEmpty then items
      else
        let sets := setsOf items partSlugs
        if sets ≤ 0 then items
        else
          (takeParts sets partSlugs items).filter (fun i => decide (0 < i.quantity)) ++ [setItem rootItem sets]
  | _, _ => items

/-- Replaces every complete set of parts with the set item; leftover parts stay. -/
def foldSets (items : List ResolvedItem) (candidates : List String) (parts : PartsMap)
    (index : List CacheTradableItem) : List ResolvedItem :=
  candidates.foldl (foldRoot parts index) items

/-! ### The quantity of a slug -/

section Quantities

variable {items : List ResolvedItem} {slug : String}

@[simp] theorem quantityOf_nil (slug : String) : quantityOf [] slug = 0 := rfl

theorem quantityOf_cons (item : ResolvedItem) (items : List ResolvedItem) (slug : String) :
    quantityOf (item :: items) slug = (if item.slug = slug then item.quantity else 0) + quantityOf items slug := by
  by_cases h : item.slug = slug
  · simp [quantityOf, h]
  · simp [quantityOf, h]

theorem quantityOf_append (items items' : List ResolvedItem) (slug : String) :
    quantityOf (items ++ items') slug = quantityOf items slug + quantityOf items' slug := by
  simp [quantityOf]

theorem quantityOf_nonneg (h : ∀ i ∈ items, 0 ≤ i.quantity) (slug : String) : 0 ≤ quantityOf items slug := by
  induction items with
  | nil => exact le_refl _
  | cons item items ih =>
      rw [quantityOf_cons]
      have hhead := h item List.mem_cons_self
      have htail := ih fun i hi => h i (List.mem_cons_of_mem _ hi)
      split <;> omega

theorem countOf_eq (items : List ResolvedItem) (slug : String) :
    countOf items slug = wrapI64 (quantityOf items slug) := sumI64_eq _

theorem countOf_le_i64Max (items : List ResolvedItem) (slug : String) : countOf items slug ≤ i64Max := by
  rw [countOf_eq]
  exact (wrapI64_inI64 _).2

/-- A sum that wraps counts for less. -/
theorem countOf_le (h : ∀ i ∈ items, 0 ≤ i.quantity) (slug : String) : countOf items slug ≤ quantityOf items slug := by
  rw [countOf_eq]
  exact wrapI64_le (quantityOf_nonneg h slug)

theorem countOf_of_le (h : ∀ i ∈ items, 0 ≤ i.quantity) (hfits : quantityOf items slug ≤ i64Max) :
    countOf items slug = quantityOf items slug := by
  have hnonneg := quantityOf_nonneg h slug
  rw [countOf_eq]
  refine wrapI64_of_inI64 ⟨?_, hfits⟩
  unfold i64Min
  omega

/-- What has run out counts for nothing. -/
theorem quantityOf_filter_pos (h : ∀ i ∈ items, 0 ≤ i.quantity) (slug : String) :
    quantityOf (items.filter fun i => decide (0 < i.quantity)) slug = quantityOf items slug := by
  induction items with
  | nil => rfl
  | cons item items ih =>
      have hhead := h item List.mem_cons_self
      have htail := ih fun i hi => h i (List.mem_cons_of_mem _ hi)
      rw [List.filter_cons, quantityOf_cons]
      split
      next => rw [quantityOf_cons, htail]
      next hpos =>
        have hzero : item.quantity = 0 := by
          have := of_decide_eq_false (Bool.eq_false_iff.mpr hpos)
          omega
        rw [htail, hzero, ite_self, zero_add]

theorem takePart_nonneg (h : ∀ i ∈ items, 0 ≤ i.quantity) (slug : String) (remaining : Int) :
    ∀ i ∈ takePart slug remaining items, 0 ≤ i.quantity := by
  induction items generalizing remaining with
  | nil => exact h
  | cons item items ih =>
      have hhead := h item List.mem_cons_self
      have htail := ih fun i hi => h i (List.mem_cons_of_mem _ hi)
      rw [takePart]
      split
      next =>
        intro i hi
        rcases List.mem_cons.mp hi with rfl | hi
        · dsimp only
          omega
        · exact htail _ i hi
      next =>
        intro i hi
        rcases List.mem_cons.mp hi with rfl | hi
        · exact hhead
        · exact htail _ i hi

/-- Where there is enough of it, exactly what is asked for is taken of the part, and of nothing else. -/
theorem quantityOf_takePart (h : ∀ i ∈ items, 0 ≤ i.quantity) {remaining : Int} (hasked : 0 ≤ remaining)
    (henough : remaining ≤ quantityOf items slug) (other : String) :
    quantityOf (takePart slug remaining items) other =
      quantityOf items other - if other = slug then remaining else 0 := by
  induction items generalizing remaining with
  | nil =>
      have hzero : remaining = 0 := le_antisymm henough hasked
      rw [hzero, ite_self]
      rfl
  | cons item items ih =>
      have hhead := h item List.mem_cons_self
      have htail := fun i hi => h i (List.mem_cons_of_mem item hi)
      have hrest := quantityOf_nonneg htail slug
      rw [quantityOf_cons] at henough
      rw [takePart]
      by_cases hitem : item.slug = slug
      · rw [if_pos hitem] at henough ⊢
        rw [quantityOf_cons, quantityOf_cons, ih htail (by omega) (by omega)]
        dsimp only
        by_cases hother : other = slug
        · simp only [hother, hitem, if_true]
          omega
        · have hother' : item.slug ≠ other := fun h => hother (h.symm.trans hitem)
          simp only [hother, hother', if_false, sub_zero]
      · rw [if_neg hitem] at henough ⊢
        rw [quantityOf_cons, quantityOf_cons, ih htail hasked (by omega)]
        omega

theorem takeParts_nonneg (sets : Int) (partSlugs : List SetPart) (h : ∀ i ∈ items, 0 ≤ i.quantity) :
    ∀ i ∈ takeParts sets partSlugs items, 0 ≤ i.quantity := by
  induction partSlugs generalizing items with
  | nil => exact h
  | cons part partSlugs ih => exact ih (takePart_nonneg h _ _)

/-- What one set needs of a slug. -/
def perSet (partSlugs : List SetPart) (slug : String) : Int :=
  ((partSlugs.filter fun part => part.slug = slug).map SetPart.need).sum

theorem perSet_cons (part : SetPart) (partSlugs : List SetPart) (slug : String) :
    perSet (part :: partSlugs) slug = (if part.slug = slug then part.need else 0) + perSet partSlugs slug := by
  by_cases h : part.slug = slug
  · simp [perSet, h]
  · simp [perSet, h]

theorem SetPart.need_pos (part : SetPart) : 0 < part.need := lt_of_lt_of_le one_pos (le_max_right _ _)

/-- The parts of the sets are taken, no more and nothing else. -/
theorem quantityOf_takeParts {sets : Int} (hsets : 0 ≤ sets) {partSlugs : List SetPart}
    (hslugs : (partSlugs.map SetPart.slug).Nodup) (h : ∀ i ∈ items, 0 ≤ i.quantity)
    (henough : ∀ part ∈ partSlugs, sets * part.need ≤ quantityOf items part.slug)
    (hfits : ∀ part ∈ partSlugs, sets * part.need ≤ i64Max) (other : String) :
    quantityOf (takeParts sets partSlugs items) other = quantityOf items other - sets * perSet partSlugs other := by
  induction partSlugs generalizing items with
  | nil =>
      rw [perSet, List.filter_nil, List.map_nil, List.sum_nil, mul_zero, sub_zero]
      rfl
  | cons part partSlugs ih =>
      rw [List.map_cons, List.nodup_cons] at hslugs
      have hneed : 0 ≤ part.need * sets := Int.mul_nonneg part.need_pos.le hsets
      have hhead : part.need * sets ≤ quantityOf items part.slug := by
        rw [mul_comm]
        exact henough part List.mem_cons_self
      have hasked : wrapI64 (part.need * sets) = part.need * sets := by
        refine wrapI64_of_inI64 ⟨?_, ?_⟩
        · unfold i64Min
          omega
        · rw [mul_comm]
          exact hfits part List.mem_cons_self
      have htaken := quantityOf_takePart h hneed hhead
      rw [← hasked] at htaken
      rw [takeParts, List.foldl_cons, ← takeParts, ih hslugs.2 (takePart_nonneg h _ _), htaken, hasked, perSet_cons,
        mul_add]
      · by_cases hother : other = part.slug
        · rw [if_pos hother, if_pos hother.symm, mul_comm]
          omega
        · rw [if_neg hother, if_neg fun h => hother h.symm]
          omega
      · intro part' hpart'
        have hother : part'.slug ≠ part.slug := by
          intro heq
          exact hslugs.1 (heq ▸ List.mem_map_of_mem hpart')
        rw [htaken, if_neg hother, sub_zero]
        exact henough part' (List.mem_cons_of_mem _ hpart')
      · exact fun part' hpart' => hfits part' (List.mem_cons_of_mem _ hpart')

/-- The sets that are made need no more of any part than was counted. -/
theorem setsOf_le {partSlugs : List SetPart} (hpos : 0 < setsOf items partSlugs) {part : SetPart}
    (hpart : part ∈ partSlugs) : setsOf items partSlugs * part.need ≤ countOf items part.slug := by
  rw [setsOf] at hpos ⊢
  cases hmin : (partSlugs.map fun part => (countOf items part.slug).tdiv part.need).min? with
  | none =>
      rw [hmin] at hpos
      exact absurd hpos (lt_irrefl 0)
  | some sets =>
      rw [hmin, Option.getD_some] at hpos
      rw [Option.getD_some]
      obtain ⟨-, hle⟩ := List.min?_eq_some_iff.mp hmin
      have hquotient : sets ≤ (countOf items part.slug).tdiv part.need := hle _ (List.mem_map_of_mem hpart)
      have hcounted : 0 ≤ countOf items part.slug := by
        by_contra hneg
        have hnonpos : 0 ≤ (-countOf items part.slug).tdiv part.need :=
          Int.tdiv_nonneg (by omega) part.need_pos.le
        rw [Int.neg_tdiv] at hnonpos
        omega
      rw [Int.tdiv_eq_ediv_of_nonneg hcounted] at hquotient
      exact (Int.le_ediv_iff_mul_le part.need_pos).mp hquotient

/-- The code makes as many sets as the items hold the parts of, where no sum wraps. -/
theorem setsOf_isGreatest {partSlugs : List SetPart} (hne : partSlugs ≠ []) (h : ∀ i ∈ items, 0 ≤ i.quantity)
    (hfits : ∀ part ∈ partSlugs, quantityOf items part.slug ≤ i64Max) :
    IsGreatest {sets | 0 ≤ sets ∧ ∀ part ∈ partSlugs, sets * part.need ≤ quantityOf items part.slug}
      (setsOf items partSlugs) := by
  have hquotient (part : SetPart) (sets : Int) :
      sets * part.need ≤ quantityOf items part.slug ↔ sets ≤ (quantityOf items part.slug).tdiv part.need := by
    rw [Int.tdiv_eq_ediv_of_nonneg (quantityOf_nonneg h _)]
    exact (Int.le_ediv_iff_mul_le part.need_pos).symm
  have hcounts : (partSlugs.map fun part => (countOf items part.slug).tdiv part.need) =
      partSlugs.map fun part => (quantityOf items part.slug).tdiv part.need :=
    List.map_congr_left fun part hpart => congrArg (·.tdiv part.need) (countOf_of_le h (hfits part hpart))
  simp only [hquotient]
  rw [setsOf, hcounts]
  cases hmin : (partSlugs.map fun part => (quantityOf items part.slug).tdiv part.need).min? with
  | none => exact absurd (List.map_eq_nil_iff.mp (List.min?_eq_none_iff.mp hmin)) hne
  | some sets =>
      obtain ⟨hmem, hle⟩ := List.min?_eq_some_iff.mp hmin
      rw [Option.getD_some]
      refine ⟨⟨?_, fun part hpart => hle _ (List.mem_map_of_mem hpart)⟩, fun sets' hsets' => ?_⟩
      · obtain ⟨part, -, rfl⟩ := List.mem_map.mp hmem
        exact Int.tdiv_nonneg (quantityOf_nonneg h _) part.need_pos.le
      · obtain ⟨part, hpart, rfl⟩ := List.mem_map.mp hmem
        exact hsets'.2 part hpart

end Quantities

/-! ### The folds -/

/-- Sets made of a root, and the item they become. -/
structure Fold where
  root : CacheTradableItem
  sets : Int
  deriving DecidableEq, Repr

def Fold.item (fold : Fold) : ResolvedItem := setItem fold.root fold.sets

/-- What a candidate folds of the items, if anything. -/
def foldOf (parts : PartsMap) (index : List CacheTradableItem) (items : List ResolvedItem) (root : String) :
    Option Fold :=
  match bySlug index root with
  | none => none
  | some rootItem =>
      let sets := setsOf items (partSlugsOf parts root)
      if partSlugsOf parts root = [] ∨ sets ≤ 0 then none else some ⟨rootItem, sets⟩

/-- The folds of the candidates, in turn. -/
def foldsOf (parts : PartsMap) (index : List CacheTradableItem) : List ResolvedItem → List String → List Fold
  | _, [] => []
  | items, root :: candidates =>
      (foldOf parts index items root).toList ++ foldsOf parts index (foldRoot parts index items root) candidates

/-- The set item of a fold replaced by its parts times its quantity. -/
def Fold.undo (parts : PartsMap) (fold : Fold) (stock : String → Int) (slug : String) : Int :=
  stock slug - (if slug = fold.root.wfmUrl then fold.sets else 0) +
    fold.sets * perSet (partSlugsOf parts fold.root.wfmUrl) slug

section Folds

variable {parts : PartsMap} {index : List CacheTradableItem} {items : List ResolvedItem} {root : String} {fold : Fold}

theorem wfmUrl_of_bySlug {rootItem : CacheTradableItem} (h : bySlug index root = some rootItem) :
    rootItem.wfmUrl = root := by
  have hslug := List.find?_some h
  exact beq_iff_eq.mp hslug

theorem foldRoot_of_none (h : foldOf parts index items root = none) : foldRoot parts index items root = items := by
  rw [foldOf] at h
  rw [foldRoot]
  split
  next hparts hroot =>
    rw [hroot] at h
    dsimp only at h ⊢
    split at h
    next hnone =>
      simp only [List.isEmpty_iff]
      split
      next => rfl
      next hne => exact if_pos (hnone.resolve_left hne)
    next => cases h
  next => rfl

/-- What a fold is. -/
structure Folded (parts : PartsMap) (index : List CacheTradableItem) (items : List ResolvedItem) (root : String)
    (fold : Fold) : Prop where
  root_eq : fold.root.wfmUrl = root
  indexed : bySlug index root = some fold.root
  has_parts : partSlugsOf parts root ≠ []
  sets_eq : fold.sets = setsOf items (partSlugsOf parts root)
  sets_pos : 0 < fold.sets
  result : foldRoot parts index items root =
    (takeParts fold.sets (partSlugsOf parts root) items).filter (fun i => decide (0 < i.quantity)) ++ [fold.item]

theorem folded_of_some (h : foldOf parts index items root = some fold) : Folded parts index items root fold := by
  rw [foldOf] at h
  split at h
  next => cases h
  next rootItem hroot =>
    dsimp only at h
    split at h
    next => cases h
    next hsome =>
      cases h
      rw [not_or, not_le] at hsome
      refine ⟨wfmUrl_of_bySlug hroot, hroot, hsome.1, rfl, hsome.2, ?_⟩
      have hparts : (parts root).isSome = true := by
        rw [partSlugsOf] at hsome
        cases hnone : parts root with
        | none =>
            rw [hnone] at hsome
            exact absurd rfl hsome.1
        | some ps => rfl
      obtain ⟨ps, hps⟩ := Option.isSome_iff_exists.mp hparts
      rw [foldRoot, hps, hroot]
      simp only [List.isEmpty_iff, if_neg hsome.1, if_neg (not_le.mpr hsome.2)]
      rfl

/-- Every line has something in it. -/
def Stocked (items : List ResolvedItem) : Prop := ∀ i ∈ items, 1 ≤ i.quantity

theorem Stocked.nonneg (h : Stocked items) : ∀ i ∈ items, 0 ≤ i.quantity := fun i hi => by
  have := h i hi
  omega

theorem Stocked.foldRoot (h : Stocked items) (root : String) : Stocked (foldRoot parts index items root) := by
  cases hfold : foldOf parts index items root with
  | none =>
      rw [foldRoot_of_none hfold]
      exact h
  | some fold =>
      have hfolded := folded_of_some hfold
      rw [hfolded.result]
      intro i hi
      rcases List.mem_append.mp hi with hi | hi
      · have hpos := of_decide_eq_true (List.mem_filter.mp hi).2
        omega
      · cases List.mem_singleton.mp hi
        exact hfolded.sets_pos

theorem Stocked.foldSets (h : Stocked items) (candidates : List String) :
    Stocked (foldSets items candidates parts index) := by
  induction candidates generalizing items with
  | nil => exact h
  | cons root candidates ih => exact ih (h.foldRoot root)

/-- No parts list names a part twice. -/
def PartsMap.Distinct (parts : PartsMap) : Prop := ∀ root ps, parts root = some ps → (ps.map SetPart.slug).Nodup

theorem PartsMap.Distinct.partSlugsOf (h : parts.Distinct) (root : String) :
    ((partSlugsOf parts root).map SetPart.slug).Nodup := by
  rw [Trades.partSlugsOf]
  cases hparts : parts root with
  | none => exact List.nodup_nil
  | some ps => exact (h root ps hparts).sublist (List.filter_sublist.map _)

/-- Undoing a fold gives back the quantities before it. -/
theorem Folded.undo (hparts : parts.Distinct) (hitems : Stocked items) (h : Folded parts index items root fold) :
    fold.undo parts (quantityOf (foldRoot parts index items root)) = quantityOf items := by
  have hcounted : ∀ part ∈ partSlugsOf parts root, fold.sets * part.need ≤ countOf items part.slug := by
    intro part hpart
    have hpos := h.sets_pos
    rw [h.sets_eq] at hpos ⊢
    exact setsOf_le hpos hpart
  funext slug
  have htaken := quantityOf_takeParts h.sets_pos.le (hparts.partSlugsOf root) hitems.nonneg
    (fun part hpart => (hcounted part hpart).trans (countOf_le hitems.nonneg _))
    (fun part hpart => (hcounted part hpart).trans (countOf_le_i64Max _ _)) slug
  have hitem : quantityOf [fold.item] slug = if slug = root then fold.sets else 0 := by
    rw [quantityOf_cons, quantityOf_nil, add_zero]
    change (if fold.root.wfmUrl = slug then fold.sets else 0) = _
    rw [h.root_eq]
    exact if_congr eq_comm rfl rfl
  rw [Fold.undo, h.root_eq, h.result, quantityOf_append, quantityOf_filter_pos (takeParts_nonneg _ _ hitems.nonneg),
    htaken, hitem]
  omega

theorem takePart_filter {p : String → Bool} {slug : String} (hp : p slug = false) (remaining : Int)
    (items : List ResolvedItem) :
    (takePart slug remaining items).filter (fun i => p i.slug) = items.filter fun i => p i.slug := by
  induction items generalizing remaining with
  | nil => rfl
  | cons item items ih =>
      rw [takePart]
      by_cases hitem : item.slug = slug
      · rw [if_pos hitem]
        simp only [List.filter_cons, hitem, hp, Bool.false_eq_true, if_false]
        exact ih _
      · rw [if_neg hitem, List.filter_cons, List.filter_cons, ih]

theorem takeParts_filter {p : String → Bool} {partSlugs : List SetPart} (hp : ∀ part ∈ partSlugs, p part.slug = false)
    (sets : Int) (items : List ResolvedItem) :
    (takeParts sets partSlugs items).filter (fun i => p i.slug) = items.filter fun i => p i.slug := by
  induction partSlugs generalizing items with
  | nil => rfl
  | cons part partSlugs ih =>
      have htail := ih fun part' hpart' => hp part' (List.mem_cons_of_mem _ hpart')
      rw [takeParts, List.foldl_cons, ← takeParts, htail, takePart_filter (hp part List.mem_cons_self)]

/-- The items that are no part of the fold stay as they are, and the set item comes after them. -/
theorem Folded.filter (hitems : Stocked items) (h : Folded parts index items root fold) {p : String → Bool}
    (hp : ∀ part ∈ partSlugsOf parts root, p part.slug = false) :
    (foldRoot parts index items root).filter (fun i => p i.slug) =
      (items ++ [fold.item]).filter fun i => p i.slug := by
  have hcomm (l : List ResolvedItem) : (l.filter fun i => decide (0 < i.quantity)).filter (fun i => p i.slug) =
      (l.filter fun i => p i.slug).filter fun i => decide (0 < i.quantity) := by
    rw [List.filter_filter, List.filter_filter]
    exact List.filter_congr fun i _ => Bool.and_comm _ _
  rw [h.result, List.filter_append, List.filter_append, hcomm, takeParts_filter hp]
  refine congrArg (· ++ _) (List.filter_eq_self.mpr fun i hi => ?_)
  have hpos := hitems i (List.mem_filter.mp hi).1
  exact decide_eq_true (by omega)

theorem foldSets_filter (hitems : Stocked items) {candidates : List String} {p : String → Bool}
    (hp : ∀ fold ∈ foldsOf parts index items candidates,
      ∀ part ∈ partSlugsOf parts fold.root.wfmUrl, p part.slug = false) :
    (foldSets items candidates parts index).filter (fun i => p i.slug) =
      (items ++ (foldsOf parts index items candidates).map Fold.item).filter fun i => p i.slug := by
  induction candidates generalizing items with
  | nil => rw [foldsOf, List.map_nil, List.append_nil]; rfl
  | cons root candidates ih =>
      rw [foldsOf] at hp ⊢
      have htail := ih (hitems.foldRoot root) fun fold hfold => hp fold (List.mem_append_right _ hfold)
      rw [foldSets, List.foldl_cons, ← foldSets, htail]
      cases hfold : foldOf parts index items root with
      | none => rw [foldRoot_of_none hfold, Option.toList_none, List.nil_append]
      | some fold =>
          have hfolded := folded_of_some hfold
          have hhead := hp fold (List.mem_append_left _ (by rw [hfold]; exact List.mem_singleton_self fold))
          rw [hfolded.root_eq] at hhead
          rw [List.filter_append, hfolded.filter hitems hhead, ← List.filter_append, Option.toList_some,
            List.map_append, List.map_singleton, List.append_assoc]

theorem foldSets_undo (hparts : parts.Distinct) (hitems : Stocked items) (candidates : List String) :
    (foldsOf parts index items candidates).foldr (Fold.undo parts)
      (quantityOf (foldSets items candidates parts index)) = quantityOf items := by
  induction candidates generalizing items with
  | nil => rfl
  | cons root candidates ih =>
      have hstocked : Stocked (foldRoot parts index items root) := hitems.foldRoot root
      have htail := ih hstocked
      rw [foldsOf, List.foldr_append, foldSets, List.foldl_cons, ← foldSets, htail]
      cases hfold : foldOf parts index items root with
      | none => rw [foldRoot_of_none hfold]; rfl
      | some fold => exact (folded_of_some hfold).undo hparts hitems

end Folds

/-- Undoing the folds from the last one back gives the quantities there were; every candidate folds as many sets as the
items left to it hold, if the lines of each part add up to an `i64`; and items of no folded part list are left
as they are, before the set items. -/
theorem fold_sets_conserves (items : List ResolvedItem) (candidates : List String) (parts : PartsMap)
    (index : List CacheTradableItem) (hitems : ∀ i ∈ items, 1 ≤ i.quantity)
    (hparts : ∀ root ps, parts root = some ps → (ps.map SetPart.slug).Nodup) :
    (foldsOf parts index items candidates).foldr (Fold.undo parts)
        (quantityOf (foldSets items candidates parts index)) = quantityOf items ∧
      (∀ before root after, candidates = before ++ root :: after → partSlugsOf parts root ≠ [] →
        bySlug index root ≠ none →
        (∀ part ∈ partSlugsOf parts root, quantityOf (foldSets items before parts index) part.slug ≤ i64Max) →
        IsGreatest {sets | 0 ≤ sets ∧ ∀ part ∈ partSlugsOf parts root,
            sets * part.need ≤ quantityOf (foldSets items before parts index) part.slug}
          ((foldOf parts index (foldSets items before parts index) root).elim 0 Fold.sets)) ∧
      ∀ p : String → Bool,
        (∀ fold ∈ foldsOf parts index items candidates,
          ∀ part ∈ partSlugsOf parts fold.root.wfmUrl, p part.slug = false) →
        (foldSets items candidates parts index).filter (fun i => p i.slug) =
          items.filter (fun i => p i.slug) ++
            ((foldsOf parts index items candidates).map Fold.item).filter fun i => p i.slug := by
  refine ⟨foldSets_undo hparts hitems candidates, ?_, fun p hp => ?_⟩
  · intro before root after _ hsome hindexed hfits
    have hstocked : Stocked (foldSets items before parts index) := Stocked.foldSets hitems before
    have hgreatest := setsOf_isGreatest hsome hstocked.nonneg hfits
    cases hfold : foldOf parts index (foldSets items before parts index) root with
    | some fold =>
        rw [Option.elim_some, (folded_of_some hfold).sets_eq]
        exact hgreatest
    | none =>
        obtain ⟨rootItem, hroot⟩ := Option.ne_none_iff_exists'.mp hindexed
        rw [foldOf, hroot] at hfold
        dsimp only at hfold
        split at hfold
        next hnothing =>
          have hzero := le_antisymm (hnothing.resolve_left hsome) hgreatest.1.1
          rw [hzero] at hgreatest
          exact hgreatest
        next => cases hfold
  · rw [← List.filter_append]
    exact foldSets_filter hitems hp

/-! ### A purchase of three gauntlets, two boots and a blueprint -/

def kogakeItem (slug : String) (quantity : Int) : ResolvedItem := ⟨slug, slug, slug, slug, none, quantity, 0, "name"⟩

def kogakeItems : List ResolvedItem := [kogakeItem "gauntlet" 3, kogakeItem "boot" 2, kogakeItem "blueprint" 1]

def kogakeParts (root : String) : Option (List SetPart) :=
  if root = "kogake" then some [⟨"blueprint", 1⟩, ⟨"gauntlet", 2⟩, ⟨"boot", 2⟩] else none

def kogakeIndex : List CacheTradableItem := [⟨"Kogake Set", "id-kogake", "kogake"⟩]

theorem fold_sets_conserves_kogake :
    (foldSets kogakeItems ["kogake"] kogakeParts kogakeIndex).map ResolvedItem.quantity = [1, 1] ∧
      (foldsOf kogakeParts kogakeIndex kogakeItems ["kogake"]).foldr (Fold.undo kogakeParts)
        (quantityOf (foldSets kogakeItems ["kogake"] kogakeParts kogakeIndex)) = quantityOf kogakeItems := by
  refine ⟨by decide, (fold_sets_conserves kogakeItems ["kogake"] kogakeParts kogakeIndex (by decide) ?_).1⟩
  intro root ps hps
  rw [kogakeParts] at hps
  split at hps
  next =>
    cases hps
    decide
  next => cases hps

/-- Two lines of 2^62 boots, where a set takes one. -/
def bootItems : List ResolvedItem := [kogakeItem "boot" (2 ^ 62), kogakeItem "boot" (2 ^ 62)]

def bootParts (root : String) : Option (List SetPart) := if root = "kogake" then some [⟨"boot", 1⟩] else none

/-- The lines add up to -2^63, and no set is folded. -/
theorem wrapped_parts_left :
    foldSets bootItems ["kogake"] bootParts kogakeIndex = bootItems ∧
      ¬ IsGreatest {sets | 0 ≤ sets ∧ ∀ part ∈ partSlugsOf bootParts "kogake",
          sets * part.need ≤ quantityOf bootItems part.slug}
        ((foldOf bootParts kogakeIndex bootItems "kogake").elim 0 Fold.sets) := by
  refine ⟨by decide, fun hgreatest => ?_⟩
  have hone : (1 : Int) ≤ (foldOf bootParts kogakeIndex bootItems "kogake").elim 0 Fold.sets :=
    hgreatest.2 ⟨by decide, by decide⟩
  exact absurd hone (by decide)

end Quantframe.Trades
