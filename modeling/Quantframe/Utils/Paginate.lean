import Mathlib.Data.List.Basic
import Quantframe.Lib.Binary64
import Quantframe.Lib.Words

/-!
# Pages of a list

The release build, in which the arithmetic of `i64` wraps.
-/

namespace Quantframe.Utils

open Lib Lib.Binary64

/-! ### The page -/

structure PaginatedResult (T : Type) where
  results : List T
  page : Int
  limit : Int
  total : Int
  totalPages : Int
  deriving DecidableEq, Repr

variable {T : Type}

/-- `items[start..end]`, `none` when it panics. -/
def slice (items : List T) (start endAt : Nat) : Option (List T) :=
  if start ≤ endAt ∧ endAt ≤ items.length then some ((items.drop start).take (endAt - start)) else none

/-- `total` and `perPage` as doubles, divided, rounded up and cast. -/
def divCeil (total perPage : Int) : Int :=
  if perPage = 0 then
    -- `NaN` casts to zero, an infinity saturates
    if total = 0 then 0 else if 0 < total then i64Max else i64Min
  else saturateI64 ⌈toF64 (toF64 total / toF64 perPage)⌉

def totalPages (total perPage : Int) : Int := if perPage = -1 then 1 else divCeil total perPage

def pageItems (items : List T) (page perPage : Int) : Option (List T) :=
  let totalItems := wrapI64 items.length
  let start := wrapI64 (saturatingSub page 1 * perPage)
  let endAt := min (wrapI64 (start + perPage)) totalItems
  if start < totalItems ∧ 0 < endAt then slice items (asUsize start) (asUsize endAt)
  else if perPage = -1 then some items else some []

/-- `none` when the slice panics. -/
def paginate (items : List T) (page perPage : Int) : Option (PaginatedResult T) :=
  (pageItems items page perPage).map fun results =>
    { results
      page
      limit := perPage
      total := wrapI64 items.length
      totalPages := totalPages (wrapI64 items.length) perPage }

/-- What a caller expects of `paginate`. -/
structure Paginates (items : List T) (page perPage : Int) : Prop where
  inRange : (paginate items page perPage).isSome
  partition : 1 ≤ perPage → ∃ pages : List (List T),
    pages.length = (totalPages items.length perPage).toNat ∧
    (∀ k < pages.length, (paginate items (k + 1) perPage).map (·.results) = pages[k]?) ∧
    pages.flatten = items ∧ ∀ shown ∈ pages.dropLast, shown.length = perPage
  later : 1 ≤ perPage → totalPages items.length perPage < page →
    (paginate items page perPage).map (·.results) = some []
  whole : perPage = -1 → page = 1 → (paginate items page perPage).map (·.results) = some items

/-- The position of a page in the list, up to a multiple of `2⁶⁴`. -/
def Position (page perPage q : Int) : Prop := q ≡ saturatingSub page 1 * perPage [ZMOD words]

/-- Where the 64-bit positions leave `paginate` right. -/
structure Addressed (total page perPage : Int) : Prop where
  /-- A negative page length leads out of the list to the left. -/
  backward : perPage < 0 → ∀ q, Position page perPage q → q < total → q ≤ -perPage
  /-- A page that starts left of the list does not reach into it. -/
  leftOf : 0 < total → 1 ≤ perPage → ∀ q, Position page perPage q → q < 0 → q ≤ -perPage
  /-- Nor does one that passes the least `i64`. -/
  under : 0 < total → perPage < 0 → ∀ q, Position page perPage q → i64Min ≤ q → q + perPage < i64Min →
    q + perPage ≤ -words
  /-- A page beyond the list does not come round into it. -/
  beyond : 1 ≤ perPage → total ≤ (page - 1) * perPage → ∀ q, Position page perPage q → 0 ≤ q → q < total →
    i64Max < q + perPage

/-- What only lists of `2⁵³` elements or more can break: the end of every page is an `i64`, and the quotient of the
doubles rounds up to the number of pages, the last of which may be empty. -/
structure Countable (total perPage : Int) : Prop where
  fits : 1 ≤ perPage → ∀ k : Nat, k * perPage < total → (k + 1) * perPage ≤ i64Max
  covers : 1 ≤ perPage → total ≤ divCeil total perPage * perPage
  ends : 1 ≤ perPage → (divCeil total perPage - 1) * perPage ≤ total

section Slices

variable {items : List T} {page perPage start endAt : Int}

theorem slice_isSome_iff {start endAt : Nat} :
    (slice items start endAt).isSome ↔ start ≤ endAt ∧ endAt ≤ items.length := by
  rw [slice]
  split <;> simp_all

variable (hlen : items.length ≤ i64Max) (hstart : wrapI64 (saturatingSub page 1 * perPage) = start)
  (hend : wrapI64 (start + perPage) = endAt)

include hlen in
theorem wrapI64_length : wrapI64 items.length = items.length := by
  apply wrapI64_of_inI64
  unfold InI64 i64Min
  omega

include hlen hstart hend

theorem pageItems_sliced (hlt : start < items.length) (hpos : 0 < endAt) (hne : 0 < (items.length : Int)) :
    pageItems items page perPage = slice items (asUsize start) (min endAt items.length).toNat := by
  have hcond : start < items.length ∧ 0 < min endAt items.length := ⟨hlt, by omega⟩
  have hcast : asUsize (min endAt items.length) = (min endAt items.length).toNat :=
    asUsize_of_nonneg (by omega) (by omega)
  simp only [pageItems, hstart, hend, wrapI64_length hlen, if_pos hcond, hcast]

theorem pageItems_skipped (h : start < items.length → 0 < (items.length : Int) → endAt ≤ 0) :
    pageItems items page perPage = some (if perPage = -1 then items else []) := by
  have hcond : ¬(start < items.length ∧ 0 < min endAt items.length) := by omega
  simp only [pageItems, hstart, hend, wrapI64_length hlen, if_neg hcond]
  split <;> rfl

/-- The slice that is taken is in range exactly when it does not run backwards. -/
theorem pageItems_isSome_iff : (pageItems items page perPage).isSome ↔
    (start < items.length → 0 < (items.length : Int) → 0 < endAt → 0 ≤ start ∧ start ≤ endAt) := by
  by_cases htaken : start < items.length ∧ 0 < (items.length : Int) ∧ 0 < endAt
  · obtain ⟨hlt, hne, hpos⟩ := htaken
    rw [pageItems_sliced hlen hstart hend hlt hpos hne, slice_isSome_iff]
    rcases lt_or_ge start 0 with hneg | hnonneg
    · have hpast := lt_asUsize_of_neg hneg (hstart ▸ (wrapI64_inI64 _).1)
      omega
    · rw [asUsize_of_nonneg hnonneg (by omega)]
      omega
  · rw [pageItems_skipped hlen hstart hend (by omega)]
    constructor
    · intro _
      omega
    · intro _
      rfl

end Slices

section Positions

variable {items : List T} {page perPage total : Int}

/-- The slice runs forward exactly when the position of the page meets the conditions for it. -/
theorem pageItems_inRange_iff (hlen : items.length ≤ i64Max) (hper : InI64 perPage) :
    (pageItems items page perPage).isSome ↔
      (perPage < 0 → ∀ q, Position page perPage q → q < items.length → q ≤ -perPage) ∧
      (0 < (items.length : Int) → 1 ≤ perPage → ∀ q, Position page perPage q → q < 0 → q ≤ -perPage) ∧
      (0 < (items.length : Int) → perPage < 0 → ∀ q, Position page perPage q → i64Min ≤ q → q + perPage < i64Min →
        q + perPage ≤ -words) := by
  rw [pageItems_isSome_iff hlen rfl rfl]
  unfold Position
  generalize saturatingSub page 1 * perPage = p
  have hself := wrapI64_modEq p
  have hinside := wrapI64_inI64 p
  have hunique := fun q => eq_wrapI64 (m := q) (n := p)
  generalize wrapI64 p = start at hself hinside hunique ⊢
  generalize (items.length : Int) = total at hlen ⊢
  unfold InI64 i64Min i64Max words at *
  unfold wrapI64 words
  constructor
  · intro h
    refine ⟨?_, ?_, ?_⟩
    · intro hneg q hq hlt
      by_contra hfar
      have hstart := hunique q hq (by omega)
      have hforward := h (by omega) (by omega) (by omega)
      omega
    · intro hne hpos q hq hleft
      by_contra hnear
      have hstart := hunique q hq (by omega)
      have hforward := h (by omega) (by omega) (by omega)
      omega
    · intro hne hneg q hq hmin hpast
      by_contra hround
      have hstart := hunique q hq (by omega)
      have hforward := h (by omega) (by omega) (by omega)
      omega
  · rintro ⟨hback, hleft, hunder⟩ hlt hne hpos
    have hback' := fun hneg => hback hneg start hself hlt
    have hleft' := fun hper => hleft hne hper start hself
    have hunder' := fun hneg => hunder hne hneg start hself hinside.1
    omega

end Positions

/-! ### The pages in order -/

/-- The elements from `k * n` on, at most `n`. -/
def window (items : List T) (n k : Nat) : List T := (items.drop (k * n)).take n

section Windows

variable (items : List T) (n : Nat)

theorem flatten_windows (m : Nat) : ((List.range m).map (window items n)).flatten = items.take (m * n) := by
  induction m with
  | zero => simp
  | succ m ih =>
      rw [List.range_succ, List.map_append, List.flatten_append, ih, Nat.succ_mul, List.take_add]
      simp [window]

theorem length_window (k : Nat) : (window items n k).length = min n (items.length - k * n) := by
  simp [window]

end Windows

section Order

variable {items : List T} {n k : Nat}
variable (hlen : (items.length : Int) ≤ i64Max) (hpos : 1 ≤ n) (hreach : k * n ≤ items.length)

include hlen hpos hreach

/-- Up to the end of the list the position of a page does not wrap. -/
theorem start_page : wrapI64 (saturatingSub (k + 1) 1 * n) = (k * n : Nat) := by
  have hindex : k ≤ k * n := Nat.le_mul_of_pos_right k hpos
  have hsub : saturatingSub (k + 1) 1 = k := by
    unfold saturatingSub saturateI64 i64Min
    omega
  rw [hsub, ← Nat.cast_mul]
  apply wrapI64_of_inI64
  unfold InI64 i64Min
  omega

theorem pageItems_window (hfits : k * n < items.length → ((k + 1) * n : Nat) ≤ i64Max) :
    pageItems items (k + 1) n = some (window items n k) := by
  have hstart := start_page hlen hpos hreach
  rcases lt_or_eq_of_le hreach with hlt | heq
  · have hend : wrapI64 ((k * n : Nat) + n) = (k * n : Nat) + n := by
      apply wrapI64_of_inI64
      have hfits := hfits hlt
      rw [Nat.add_mul, Nat.one_mul] at hfits
      unfold InI64 i64Min
      omega
    rw [pageItems_sliced hlen hstart hend (by omega) (by omega) (by omega),
      asUsize_of_nonneg (by omega) (by omega), slice, if_pos (by omega), window]
    have htake : (min (((k * n : Nat) : Int) + n) items.length).toNat - ((k * n : Nat) : Int).toNat =
        min n (items.drop (k * n)).length := by
      rw [List.length_drop]
      omega
    rw [htake, Int.toNat_natCast, ← List.take_eq_take_min]
  · rw [pageItems_skipped hlen hstart rfl (by omega), if_neg (by omega), window, List.drop_of_length_le (by omega),
      List.take_nil]

/-- A page whose end is no `i64` is lost. -/
theorem pageItems_overflow (hn : (n : Int) ≤ i64Max) (hfits : i64Max < ((k + 1) * n : Nat)) :
    pageItems items (k + 1) n = some [] := by
  have hstart := start_page hlen hpos hreach
  rw [Nat.add_mul, Nat.one_mul] at hfits
  have hend : wrapI64 ((k * n : Nat) + n) ≤ 0 := by
    unfold i64Max at hn hfits hlen
    unfold wrapI64 words
    omega
  rw [pageItems_skipped hlen hstart rfl (by omega), if_neg (by omega)]

/-- The page at the end of the list is short. -/
theorem pageItems_short (hn : (n : Int) ≤ i64Max) (hend : items.length < (k + 1) * n) {shown : List T}
    (h : pageItems items (k + 1) n = some shown) : shown.length < n := by
  rcases le_or_gt (((k + 1) * n : Nat) : Int) i64Max with hfits | hover
  · rw [pageItems_window hlen hpos hreach (fun _ => hfits), Option.some.injEq] at h
    rw [← h, length_window]
    rw [Nat.add_mul, Nat.one_mul] at hend
    omega
  · rw [pageItems_overflow hlen hpos hreach hn hover, Option.some.injEq] at h
    rw [← h]
    exact hpos

end Order

section Partition

variable {items : List T} {n : Nat} {pages : List (List T)}

theorem paginate_results (items : List T) (page perPage : Int) :
    (paginate items page perPage).map (·.results) = pageItems items page perPage := by
  rw [paginate, Option.map_map]
  exact Option.map_id'

/-- The pages are what `paginate` shows, one after the other. -/
def Shows (items : List T) (n : Nat) (pages : List (List T)) : Prop :=
  ∀ k < pages.length, pageItems items (k + 1) n = pages[k]?

variable (hlen : (items.length : Int) ≤ i64Max) (hpos : 1 ≤ n) (hshows : Shows items n pages)

include hlen hpos hshows

/-- The first pages, as long as they are full. -/
theorem take_pages {j : Nat} (hj : j ≤ pages.length) (hreach : j * n ≤ items.length) :
    pages.take j = (List.range j).map (window items n) := by
  apply List.ext_getElem?
  intro k
  rcases lt_or_ge k j with hlt | hge
  · have hnext : (k + 1) * n ≤ j * n := Nat.mul_le_mul_right n hlt
    have hk : k * n ≤ (k + 1) * n := Nat.mul_le_mul_right n (Nat.le_succ k)
    have hwindow := pageItems_window hlen hpos (by omega : k * n ≤ items.length) (fun _ => by omega)
    rw [hshows k (by omega)] at hwindow
    simp [hlt, hwindow]
  · simp [Nat.not_lt.mpr hge]

theorem flatten_take_pages {j : Nat} (hj : j ≤ pages.length) (hreach : j * n ≤ items.length) :
    (pages.take j).flatten = items.take (j * n) := by
  rw [take_pages hlen hpos hshows hj hreach, flatten_windows]

/-- Only the last page is short. -/
theorem last_of_short (hn : (n : Int) ≤ i64Max) (hfull : ∀ shown ∈ pages.dropLast, shown.length = n) {k : Nat}
    (hk : k < pages.length) (hreach : k * n ≤ items.length) (hend : items.length < (k + 1) * n) :
    k + 1 = pages.length := by
  by_contra hne
  have hmem : pages[k] ∈ pages.dropLast := by
    rw [List.mem_iff_getElem]
    exact ⟨k, by rw [List.length_dropLast]; omega, by rw [List.getElem_dropLast]⟩
  have hshown : pageItems items (k + 1) n = some pages[k] := by rw [hshows k hk, List.getElem?_eq_getElem hk]
  have hshort := pageItems_short hlen hpos hreach hn hend hshown
  rw [hfull _ hmem] at hshort
  exact lt_irrefl n hshort

theorem ends_of_partition (hn : (n : Int) ≤ i64Max) (hfull : ∀ shown ∈ pages.dropLast, shown.length = n) :
    ((pages.length : Int) - 1) * n ≤ items.length := by
  by_contra hbeyond
  have hbefore : items.length / n * n ≤ items.length := Nat.div_mul_le_self _ _
  have hafter : items.length < (items.length / n + 1) * n := by
    rw [Nat.mul_comm]
    exact Nat.lt_mul_div_succ _ hpos
  generalize items.length / n = k at hbefore hafter
  have hindex : k + 1 < pages.length := by
    by_contra hge
    have hle : ((pages.length : Int) - 1) * n ≤ k * n := mul_le_mul_of_nonneg_right (by omega) (by omega)
    omega
  have hlast := last_of_short hlen hpos hshows hn hfull (by omega) hbefore hafter
  omega

theorem covers_of_partition (hflat : pages.flatten = items) : items.length ≤ pages.length * n := by
  by_contra hshort
  have htake := flatten_take_pages hlen hpos hshows le_rfl (by omega)
  rw [List.take_length, hflat] at htake
  have hlength := congrArg List.length htake
  rw [List.length_take] at hlength
  omega

theorem fits_of_partition (hn : (n : Int) ≤ i64Max) (hflat : pages.flatten = items)
    (hfull : ∀ shown ∈ pages.dropLast, shown.length = n) {k : Nat} (hk : k * n < items.length) :
    ((k + 1) * n : Nat) ≤ i64Max := by
  by_contra hover
  have hcovers := covers_of_partition hlen hpos hshows hflat
  have hindex : k < pages.length := by
    by_contra hge
    have hle : pages.length * n ≤ k * n := Nat.mul_le_mul_right n (by omega)
    omega
  -- the page is the last one, and nothing of it is shown
  have hlast := last_of_short hlen hpos hshows hn hfull hindex hk.le (by omega)
  have hempty : pages[k] = [] := by
    have hshown := hshows k hindex
    rw [pageItems_overflow hlen hpos hk.le hn (by omega), List.getElem?_eq_getElem hindex, Option.some.injEq] at hshown
    exact hshown.symm
  have hsplit : pages = pages.take k ++ [pages[k]] := by
    rw [List.take_append_getElem hindex, hlast, List.take_length]
  have hlength : items.length = k * n := by
    have htake := flatten_take_pages hlen hpos hshows hindex.le hk.le
    rw [← hflat, hsplit, List.flatten_append, htake, hempty]
    simp only [List.flatten_cons, List.flatten_nil, List.append_nil, List.length_take]
    omega
  omega

end Partition

section Parts

variable {items : List T} {n m : Nat}

theorem reach_of_ends (hends : ((m : Int) - 1) * n ≤ items.length) {k : Nat} (hk : k < m) : k * n ≤ items.length := by
  have hmul : (k : Int) * n ≤ ((m : Int) - 1) * n := mul_le_mul_of_nonneg_right (by omega) (by omega)
  exact_mod_cast hmul.trans hends

theorem full_of_mem_dropLast (hends : ((m : Int) - 1) * n ≤ items.length) {shown : List T}
    (h : shown ∈ ((List.range m).map (window items n)).dropLast) : shown.length = n := by
  rw [List.dropLast_eq_take, List.length_map, List.length_range, ← List.map_take, List.take_range] at h
  obtain ⟨k, hk, rfl⟩ := List.mem_map.mp h
  rw [List.mem_range] at hk
  have hnext := reach_of_ends hends (by omega : k + 1 < m)
  rw [Nat.add_mul, Nat.one_mul] at hnext
  rw [length_window]
  omega

theorem shows_windows (hlen : (items.length : Int) ≤ i64Max) (hpos : 1 ≤ n)
    (hends : ((m : Int) - 1) * n ≤ items.length)
    (hfits : ∀ k, k * n < items.length → ((k + 1) * n : Nat) ≤ i64Max) :
    Shows items n ((List.range m).map (window items n)) := by
  intro k hk
  rw [List.length_map, List.length_range] at hk
  rw [pageItems_window hlen hpos (reach_of_ends hends hk) (hfits k)]
  simp [hk]

end Parts

section Later

variable {items : List T} {page count : Int} {n : Nat}
variable (hlen : (items.length : Int) ≤ i64Max) (hpos : 1 ≤ n)

theorem saturatingSub_one (hpage : page ≤ i64Max) (h : 1 ≤ page) : saturatingSub page 1 = page - 1 := by
  unfold saturatingSub saturateI64 i64Min
  omega

include hpos in
theorem one_le_of_beyond (h : (items.length : Int) ≤ (page - 1) * n) : 1 ≤ page := by
  by_contra hlow
  have hneg : (page - 1) * n < 0 := mul_neg_of_neg_of_pos (by omega) (by omega)
  omega

include hlen hpos

/-- A page that comes round into the list shows something. -/
theorem pageItems_ne_nil {q : Int} (hq : Position page n q) (hnonneg : 0 ≤ q) (hlt : q < items.length)
    (hfits : q + n ≤ i64Max) : pageItems items page n ≠ some [] := by
  have hstart := eq_wrapI64 hq (by unfold InI64 i64Min; omega)
  have hend : wrapI64 (q + n) = q + n := wrapI64_of_inI64 (by unfold InI64 i64Min; omega)
  intro hnil
  rw [pageItems_sliced hlen hstart.symm hend hlt (by omega) (by omega), asUsize_of_nonneg hnonneg (by omega), slice,
    if_pos (by omega), Option.some.injEq] at hnil
  have hlength := congrArg List.length hnil
  rw [List.length_take, List.length_drop, List.length_nil] at hlength
  omega

theorem beyond_of_later (hpage : page ≤ i64Max) (hends : (count - 1) * n ≤ items.length)
    (hlater : count < page → pageItems items page n = some []) (hbeyond : (items.length : Int) ≤ (page - 1) * n)
    {q : Int} (hq : Position page n q) (hnonneg : 0 ≤ q) (hlt : q < items.length) : i64Max < q + n := by
  by_contra hfits
  have hlow := one_le_of_beyond hpos hbeyond
  have hpast : count < page := by
    by_contra hle
    have hmul : (page - 1) * n ≤ (count - 1) * n := mul_le_mul_of_nonneg_right (by omega) (by omega)
    -- the page starts where the list ends
    have hexact : (page - 1) * n = items.length := by omega
    rw [Position, saturatingSub_one hpage hlow, hexact] at hq
    have hstart := eq_wrapI64 hq (by unfold InI64 i64Min; omega)
    rw [wrapI64_length hlen] at hstart
    omega
  exact pageItems_ne_nil hlen hpos hq hnonneg hlt (by omega) (hlater hpast)

theorem later_of_addressed (hn : (n : Int) ≤ i64Max) (h : Addressed items.length page n)
    (hcovers : (items.length : Int) ≤ count * n) (hpast : count < page) : pageItems items page n = some [] := by
  have hbeyond : (items.length : Int) ≤ (page - 1) * n :=
    hcovers.trans (mul_le_mul_of_nonneg_right (by omega) (by omega))
  have hself := wrapI64_modEq (saturatingSub page 1 * n)
  have hinside := wrapI64_inI64 (saturatingSub page 1 * n)
  have hleft := fun hne => h.leftOf hne (by omega) _ hself
  have hround := h.beyond (by omega) hbeyond _ hself
  rw [pageItems_skipped hlen rfl rfl, if_neg (by omega)]
  intro hlt hne
  generalize wrapI64 (saturatingSub page 1 * n) = start at *
  unfold InI64 i64Min i64Max at *
  unfold wrapI64 words
  omega

end Later

section Count

variable {total perPage : Int}

theorem toF64_nonneg (h : 0 ≤ total) : 0 ≤ toF64 (total : ℚ) := by
  rcases eq_or_lt_of_le h with rfl | hpos
  · simp [toF64]
  · exact (toF64_pos (by exact_mod_cast hpos)).le

theorem divCeil_nonneg (h : 0 ≤ total) (hpos : 1 ≤ perPage) : 0 ≤ divCeil total perPage := by
  have hper : 0 < toF64 (perPage : ℚ) := toF64_pos (by exact_mod_cast hpos)
  have hquotient : 0 ≤ toF64 (toF64 total / toF64 perPage) := by
    rcases eq_or_lt_of_le (div_nonneg (toF64_nonneg h) hper.le) with hzero | hquotient
    · rw [← hzero]
      simp [toF64]
    · exact (toF64_pos hquotient).le
  have hceil := Int.ceil_nonneg hquotient
  rw [divCeil, if_neg (by omega)]
  unfold saturateI64 i64Min i64Max
  omega

theorem divCeil_of_lt (h : 0 ≤ total) (hlt : total < 2 ^ 53) (hpos : 1 ≤ perPage) :
    divCeil total perPage = ⌈(total : ℚ) / perPage⌉ := by
  have hper : (1 : ℚ) ≤ perPage := by exact_mod_cast hpos
  have hceil : ⌈toF64 (toF64 total / toF64 perPage)⌉ = ⌈(total : ℚ) / perPage⌉ := by
    rcases eq_or_lt_of_le h with rfl | hne
    · simp [toF64]
    · exact ceil_quotient hne hlt (by omega)
  have hnonneg : 0 ≤ ⌈(total : ℚ) / perPage⌉ := Int.ceil_nonneg (div_nonneg (by exact_mod_cast h) (by linarith))
  have hle : ⌈(total : ℚ) / perPage⌉ ≤ total := by
    rw [Int.ceil_le]
    exact div_le_self (by exact_mod_cast h) hper
  rw [divCeil, if_neg (by omega), hceil]
  unfold saturateI64 i64Min i64Max
  omega

/-- Lists below `2⁵³` elements are counted right. -/
theorem countable_of_lt (h : 0 ≤ total) (hlt : total < 2 ^ 53) (hper : perPage ≤ i64Max) : Countable total perPage where
  fits hpos k hk := by
    have hindex : (k : Int) = 0 ∨ perPage ≤ k * perPage := by
      rcases Nat.eq_zero_or_pos k with rfl | hk
      · exact .inl rfl
      · exact .inr (le_mul_of_one_le_left (by omega) (by omega))
    rw [add_mul, one_mul]
    rcases hindex with hzero | hle
    · rw [hzero, zero_mul]
      omega
    · unfold i64Max
      omega
  covers hpos := by
    have hperq : (0 : ℚ) < perPage := by exact_mod_cast hpos
    rw [divCeil_of_lt h hlt hpos]
    have hle := Int.le_ceil ((total : ℚ) / perPage)
    rw [div_le_iff₀ hperq] at hle
    exact_mod_cast hle
  ends hpos := by
    have hperq : (0 : ℚ) < perPage := by exact_mod_cast hpos
    rw [divCeil_of_lt h hlt hpos]
    have hbelow : ((⌈(total : ℚ) / perPage⌉ - 1 : ℤ) : ℚ) < total / perPage := Int.lt_ceil.mp (by omega)
    rw [lt_div_iff₀ hperq] at hbelow
    have hint : (⌈(total : ℚ) / perPage⌉ - 1) * perPage < total := by exact_mod_cast hbelow
    exact hint.le

end Count

section Main

variable {items : List T} {page perPage : Int}
variable (hlen : (items.length : Int) ≤ i64Max)

include hlen

theorem pageItems_whole : pageItems items 1 (-1) = some items := by
  have hstart : wrapI64 (saturatingSub 1 1 * -1) = 0 := by decide
  rw [pageItems_skipped hlen hstart rfl, if_pos rfl]
  intro _ _
  decide

theorem addressed_of_paginates (hpage : page ≤ i64Max) (hper : InI64 perPage) (h : Paginates items page perPage)
    (hcount : Countable items.length perPage) : Addressed items.length page perPage := by
  have hrange := h.inRange
  rw [← Option.isSome_map, paginate_results] at hrange
  obtain ⟨hback, hleft, hunder⟩ := (pageItems_inRange_iff hlen hper).mp hrange
  refine ⟨hback, hleft, hunder, ?_⟩
  intro hpos hbeyond q hq hnonneg hlt
  have hends := hcount.ends hpos
  have hlater := h.later hpos
  rw [totalPages, if_neg (by omega), paginate_results] at hlater
  lift perPage to ℕ using by omega with n
  exact beyond_of_later hlen (by omega) hpage hends hlater hbeyond hq hnonneg hlt

theorem countable_of_paginates (hper : InI64 perPage) (h : Paginates items page perPage) :
    Countable items.length perPage := by
  rcases lt_or_ge perPage 1 with hlow | hpos
  · constructor <;> · intro hpos; omega
  have hpages := h.partition hpos
  rw [totalPages, if_neg (by omega)] at hpages
  obtain ⟨pages, hcount, hshows, hflat, hfull⟩ := hpages
  have hnonneg : 0 ≤ divCeil items.length perPage := divCeil_nonneg (by omega) hpos
  have hmax := hper.2
  lift perPage to ℕ using by omega with n
  have hshows : Shows items n pages := fun k hk => paginate_results items (k + 1) n ▸ hshows k hk
  have hfull : ∀ shown ∈ pages.dropLast, shown.length = n := fun shown hmem => by exact_mod_cast hfull shown hmem
  have hn : 1 ≤ n := by omega
  have hcast : divCeil items.length n = (pages.length : Int) := by omega
  constructor
  · intro _ k hk
    exact_mod_cast fits_of_partition hlen hn hshows hmax hflat hfull (k := k) (by exact_mod_cast hk)
  · intro _
    rw [hcast]
    exact_mod_cast covers_of_partition hlen hn hshows hflat
  · intro _
    rw [hcast]
    exact ends_of_partition hlen hn hshows hmax hfull

theorem partition_of_countable (hpos : 1 ≤ perPage) (h : Countable items.length perPage) :
    ∃ pages : List (List T), pages.length = (totalPages items.length perPage).toNat ∧
      (∀ k < pages.length, (paginate items (k + 1) perPage).map (·.results) = pages[k]?) ∧
      pages.flatten = items ∧ ∀ shown ∈ pages.dropLast, shown.length = perPage := by
  have hends := h.ends hpos
  have hcovers := h.covers hpos
  have hfits := h.fits hpos
  have hnonneg : 0 ≤ divCeil items.length perPage := divCeil_nonneg (by omega) hpos
  rw [totalPages, if_neg (by omega)]
  lift perPage to ℕ using by omega with n
  lift divCeil items.length n to ℕ using hnonneg with m
  refine ⟨(List.range m).map (window items n), by simp, ?_, ?_, ?_⟩
  · intro k hk
    rw [paginate_results]
    have hends' : ∀ k, k * n < items.length → ((k + 1) * n : Nat) ≤ i64Max := by
      intro k hk
      exact_mod_cast hfits k (by exact_mod_cast hk)
    exact shows_windows hlen (by omega) hends hends' k hk
  · rw [flatten_windows]
    exact List.take_of_length_le (by exact_mod_cast hcovers)
  · intro shown hmem
    exact_mod_cast full_of_mem_dropLast hends hmem

theorem paginates_of_addressed (hper : InI64 perPage) (haddressed : Addressed items.length page perPage)
    (hcount : Countable items.length perPage) : Paginates items page perPage where
  inRange := by
    rw [← Option.isSome_map, paginate_results]
    exact (pageItems_inRange_iff hlen hper).mpr ⟨haddressed.backward, haddressed.leftOf, haddressed.under⟩
  partition hpos := partition_of_countable hlen hpos hcount
  later hpos hpast := by
    have hcovers := hcount.covers hpos
    have hmax := hper.2
    rw [totalPages, if_neg (by omega)] at hpast
    rw [paginate_results]
    lift perPage to ℕ using by omega with n
    exact later_of_addressed hlen (by omega) hmax haddressed hcovers hpast
  whole hall hfirst := by
    rw [hall, hfirst, paginate_results]
    exact pageItems_whole hlen

/-- `paginate` does what is expected of it exactly where the 64-bit positions do not mislead it. -/
theorem paginates_iff (hpage : InI64 page) (hper : InI64 perPage) : Paginates items page perPage ↔
    Addressed items.length page perPage ∧ Countable items.length perPage := by
  constructor
  · intro h
    have hcount := countable_of_paginates hlen hper h
    exact ⟨addressed_of_paginates hlen hpage.2 hper h hcount, hcount⟩
  · rintro ⟨haddressed, hcount⟩
    exact paginates_of_addressed hlen hper haddressed hcount

end Main

theorem paginates_iff_lastPage : Paginates [1, 2, 3] 2 2 := by
  have hlow : InI64 2 := ⟨by decide, by decide⟩
  refine (paginates_iff (by decide) hlow hlow).mpr ⟨?_, countable_of_lt (by decide) (by decide) hlow.2⟩
  have hstart : saturatingSub 2 1 * 2 = 2 := by decide
  constructor
  · intro hneg
    omega
  · intro _ _ q hq hleft
    rw [Position, hstart, Int.ModEq] at hq
    unfold words at hq
    omega
  · intro _ hneg
    omega
  · intro _ hbeyond
    simp at hbeyond

/-- Before the first page a negative page length runs backwards, and a large page number comes round to a start of
`-1`. -/
theorem paginate_panics :
    paginate [1, 2, 3] (-1) (-1) = none ∧ paginate [1, 2, 3] 6148914691236517206 3 = none ∧
      ¬Paginates [1, 2, 3] (-1) (-1) ∧ ¬Paginates [1, 2, 3] 6148914691236517206 3 := by
  have hback : paginate [1, 2, 3] (-1) (-1) = none := by decide
  have hround : paginate [1, 2, 3] 6148914691236517206 3 = none := by decide
  refine ⟨hback, hround, ?_, ?_⟩
  · intro h
    have hrange := h.inRange
    rw [hback] at hrange
    simp at hrange
  · intro h
    have hrange := h.inRange
    rw [hround] at hrange
    simp at hrange

/-! ### Clamped queries -/

structure PaginationQueryDto where
  page : Int
  limit : Int

/-- The constructor; a query that is deserialized does not go through it. -/
def PaginationQueryDto.new (page limit : Int) : PaginationQueryDto where
  page := if page < 1 then 1 else page
  limit := if limit < -1 then 25 else limit

section Clamped

variable {items : List T} {total page perPage : Int}

theorem addressed_of_clamped (htotal : 0 ≤ total) (hmax : total ≤ i64Max) (hpage : 1 ≤ page) (hlast : page ≤ i64Max)
    (hper : -1 ≤ perPage) (hfits : page * perPage ≤ i64Max) : Addressed total page perPage := by
  have hproduct : page * perPage = (page - 1) * perPage + perPage := by ring
  have hbelow : perPage = -1 → (page - 1) * perPage = 1 - page := by
    intro hall
    rw [hall]
    ring
  have habove : 0 ≤ perPage → 0 ≤ (page - 1) * perPage := mul_nonneg (by omega)
  have hposition : ∀ q, Position page perPage q → q % words = (page - 1) * perPage % words := by
    intro q hq
    rw [Position, saturatingSub_one hlast hpage] at hq
    exact hq
  generalize hstart : (page - 1) * perPage = start at *
  unfold i64Max words at *
  constructor
  · intro hneg q hq hlt
    have hword := hposition q hq
    omega
  · intro hne hpos q hq hleft
    have hword := hposition q hq
    omega
  · intro hne hneg q hq hmin hpast
    have hword := hposition q hq
    unfold i64Min at hmin hpast
    omega
  · intro hpos hbeyond q hq hnonneg hlt
    have hword := hposition q hq
    rw [hstart] at hbeyond
    unfold i64Max
    omega

/-- With the values of the constructor only an overflow is left to mislead `paginate`. -/
theorem paginates_new (hlen : (items.length : Int) < 2 ^ 53) (hpage : page ≤ i64Max) (hper : perPage ≤ i64Max)
    (hfits : (PaginationQueryDto.new page perPage).page * (PaginationQueryDto.new page perPage).limit ≤ i64Max) :
    Paginates items (PaginationQueryDto.new page perPage).page (PaginationQueryDto.new page perPage).limit := by
  have hlow : 1 ≤ (PaginationQueryDto.new page perPage).page ∧ (PaginationQueryDto.new page perPage).page ≤ i64Max := by
    unfold PaginationQueryDto.new i64Max at *
    dsimp only
    split <;> omega
  have hlimit : -1 ≤ (PaginationQueryDto.new page perPage).limit ∧
      (PaginationQueryDto.new page perPage).limit ≤ i64Max := by
    unfold PaginationQueryDto.new i64Max at *
    dsimp only
    split <;> omega
  have hcount : (items.length : Int) ≤ i64Max := by
    unfold i64Max
    omega
  generalize PaginationQueryDto.new page perPage = query at *
  exact paginates_of_addressed hcount ⟨by unfold i64Min; omega, hlimit.2⟩
    (addressed_of_clamped (by omega) hcount hlow.1 hlow.2 hlimit.1 hfits) (countable_of_lt (by omega) hlen hlimit.2)

end Clamped

end Quantframe.Utils
