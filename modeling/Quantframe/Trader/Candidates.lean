import Mathlib.Algebra.Order.Floor.Defs
import Mathlib.Algebra.Order.Field.Rat
import Mathlib.Data.Finset.Card
import Mathlib.Data.Prod.Lex
import Mathlib.Data.Rat.Floor
import Mathlib.Data.String.Basic
import Quantframe.Lib.Ranking
import Quantframe.Trader.BestSelection
import Quantframe.Trader.Collect

/-!
# Candidate selection

The rows of a cycle come from a hash map. They are cut after a sort whose key ends with the uuid, so the order of the
map does not reach the candidates.
-/

namespace Quantframe.Trader

open Lib.Ranking
open OrderDual (toDual)

/-- The further operations on `f64` of a comparison; `round` goes half away from zero. -/
structure ComparisonFloats (F : Type) extends CandidateFloats F where
  sum : List F → F
  round : F → F

/-- The two rankings side by side on the same rows. -/
structure RankingComparison where
  candidates : Nat
  entered : Nat
  left : Nat
  expectedProfitNew : Int
  expectedProfitOld : Int
  deriving DecidableEq, Repr

section Comparison

variable {F : Type} (num : ComparisonFloats F)

def filteredItems (wtb : CandidateSettings) (prices : PriceSource F) : List (PriceRow F) :=
  prices.all.filter (passes num.toCandidateFloats wtb prices)

def uuids (list : List (PriceRow F)) : Finset String := (list.map PriceRow.uuid).toFinset

/-- The summed keys of a list, rounded. -/
def expectedProfit (list : List (PriceRow F)) : Int :=
  num.asI64 (num.round (num.sum (list.map fun i => rankKey num.toCandidateFloats i .expectedProfit)))

def compareRankings (wtb : CandidateSettings) (prices : PriceSource F) : RankingComparison :=
  let items := filteredItems num wtb prices
  let new := topCandidates num.toCandidateFloats wtb items .expectedProfit
  let old := topCandidates num.toCandidateFloats wtb items .volume
  { candidates := new.length
    entered := (uuids new \ uuids old).card
    left := (uuids old \ uuids new).card
    expectedProfitNew := expectedProfit num new
    expectedProfitOld := expectedProfit num old }

end Comparison

def ComparisonFloats.exact : ComparisonFloats ℚ where
  toPriceFloats := .exact
  mul := (· * ·)
  min := Min.min
  totalLe a b := decide (a ≤ b)
  sum := List.sum
  round q := if 0 ≤ q then ⌊q + 1 / 2⌋ else ⌈q - 1 / 2⌉

/-! ### The order -/

/-- By rank key, the greatest first, then by volume likewise, then by uuid. -/
def RanksBefore (ranking : CandidateRanking) (a b : PriceRow ℚ) : Prop :=
  let key (i : PriceRow ℚ) := rankKey ComparisonFloats.exact.toCandidateFloats i ranking
  key b < key a ∨ key a = key b ∧ (b.volume < a.volume ∨ a.volume = b.volume ∧ a.uuid < b.uuid)

/-- The first candidates of some rows under a ranking: all of them without a limit. -/
def FirstOf (wtb : CandidateSettings) (ranking : CandidateRanking) (rows result : List (PriceRow ℚ)) : Prop :=
  ∃ sorted : List (PriceRow ℚ), sorted.Perm rows ∧ sorted.Pairwise (RanksBefore ranking) ∧
    result = if isDisabled wtb.maxBuyCandidates then sorted else sorted.take wtb.maxBuyCandidates.toNat

section Order

variable {ranking : CandidateRanking} {a b : PriceRow ℚ} {rows rows' : List (PriceRow ℚ)} {wtb : CandidateSettings}

/-- The rank as a point of a linear order. -/
def rank (ranking : CandidateRanking) (a : PriceRow ℚ) : ℚᵒᵈ ×ₗ (ℚᵒᵈ ×ₗ String) :=
  toLex (toDual (rankKey ComparisonFloats.exact.toCandidateFloats a ranking), toLex (toDual a.volume, a.uuid))

theorem rank_lt_iff : rank ranking a < rank ranking b ↔ RanksBefore ranking a b := by
  simp only [rank, RanksBefore, Prod.Lex.toLex_lt_toLex, OrderDual.toDual_lt_toDual, OrderDual.toDual_inj]

theorem key_le_of_rank_le (h : rank ranking a ≤ rank ranking b) :
    rankKey ComparisonFloats.exact.toCandidateFloats b ranking ≤
      rankKey ComparisonFloats.exact.toCandidateFloats a ranking := by
  rcases Prod.Lex.toLex_le_toLex.mp h with h | h
  · exact (OrderDual.toDual_lt_toDual.mp h).le
  · exact (OrderDual.toDual_inj.mp h.1).symm.le

theorem uuid_eq_of_rank_eq (h : rank ranking a = rank ranking b) : a.uuid = b.uuid :=
  (Prod.ext_iff.mp (toLex_inj.mp (Prod.ext_iff.mp (toLex_inj.mp h)).2)).2

/-- The comparison that the sort makes. -/
theorem ranksBefore_iff :
    ranksBefore ComparisonFloats.exact.toCandidateFloats ranking a b = true ↔ rank ranking a ≤ rank ranking b := by
  have htotal (x y : ℚ) : ComparisonFloats.exact.totalLe x y = decide (x ≤ y) := rfl
  simp only [ranksBefore, htotal, Bool.not_eq_true', decide_eq_false_iff_not, not_le, rank, Prod.Lex.toLex_le_toLex,
    OrderDual.toDual_lt_toDual, OrderDual.toDual_inj]
  rcases lt_trichotomy (rankKey ComparisonFloats.exact.toCandidateFloats a ranking)
      (rankKey ComparisonFloats.exact.toCandidateFloats b ranking) with hkey | hkey | hkey
  · simp [hkey, hkey.asymm, hkey.ne]
  · rcases lt_trichotomy a.volume b.volume with hvolume | hvolume | hvolume
    · simp [hkey, hvolume, hvolume.asymm, hvolume.ne]
    · simp [hkey, hvolume]
    · simp [hkey, hvolume]
  · simp [hkey]

/-- What `topCandidates` cuts. -/
def sorted (ranking : CandidateRanking) (rows : List (PriceRow ℚ)) : List (PriceRow ℚ) :=
  rows.insertionSort fun a b => ranksBefore ComparisonFloats.exact.toCandidateFloats ranking a b = true

theorem sorted_perm (ranking : CandidateRanking) (rows : List (PriceRow ℚ)) : (sorted ranking rows).Perm rows :=
  List.perm_insertionSort _ _

theorem pairwise_sorted (ranking : CandidateRanking) (rows : List (PriceRow ℚ)) :
    (sorted ranking rows).Pairwise fun a b => rank ranking a ≤ rank ranking b := by
  have hsame : sorted ranking rows = rows.insertionSort fun a b => rank ranking a ≤ rank ranking b := by
    simp only [sorted, ranksBefore_iff]
  rw [hsame]
  exact List.pairwise_insertionSort _ rows

theorem separates (h : (rows.map PriceRow.uuid).Nodup) : Separates (rank ranking) rows :=
  fun _ ha _ hb heq => List.inj_on_of_nodup_map h ha hb (uuid_eq_of_rank_eq heq)

theorem nodup_sorted (h : (rows.map PriceRow.uuid).Nodup) :
    ((sorted ranking rows).map PriceRow.uuid).Nodup :=
  ((sorted_perm ranking rows).map _).nodup_iff.mpr h

/-- The order in which the rows come does not matter. -/
theorem sorted_eq_of_perm (h : (rows.map PriceRow.uuid).Nodup) (hperm : rows'.Perm rows) :
    sorted ranking rows' = sorted ranking rows := by
  refine (eq_of_perm (separates (nodup_sorted h)) (pairwise_sorted ranking rows) (pairwise_sorted ranking rows')
    ?_).symm
  exact (sorted_perm ranking rows).trans (hperm.symm.trans (sorted_perm ranking rows').symm)

theorem firstOf_topCandidates (h : (rows.map PriceRow.uuid).Nodup) :
    FirstOf wtb ranking rows (topCandidates ComparisonFloats.exact.toCandidateFloats wtb rows ranking) := by
  have hnodup : ((sorted ranking rows).map PriceRow.uuid).Nodup := nodup_sorted h
  refine ⟨sorted ranking rows, sorted_perm ranking rows, ?_, rfl⟩
  refine (pairwise_lt (separates hnodup) (List.Nodup.of_map _ hnodup) (pairwise_sorted ranking rows)).imp ?_
  exact rank_lt_iff.mp

end Order

/-! ### The comparison -/

section Compared

variable {wtb : CandidateSettings} {ranking : CandidateRanking} {rows : List (PriceRow ℚ)} {x y : ℚ}

theorem topCandidates_eq_take (wtb : CandidateSettings) (rows : List (PriceRow ℚ)) :
    ∃ k, ∀ ranking, topCandidates ComparisonFloats.exact.toCandidateFloats wtb rows ranking =
      (sorted ranking rows).take k := by
  by_cases hlimit : isDisabled wtb.maxBuyCandidates = true
  · exists rows.length
    intro ranking
    rw [← (sorted_perm ranking rows).length_eq, List.take_length]
    exact if_pos hlimit
  · exact ⟨wtb.maxBuyCandidates.toNat, fun ranking => if_neg hlimit⟩

theorem exact_round_mono (h : x ≤ y) : ComparisonFloats.exact.round x ≤ ComparisonFloats.exact.round y := by
  simp only [ComparisonFloats.exact]
  split
  · next hx =>
      rw [if_pos (hx.trans h)]
      exact_mod_cast Int.floor_mono (add_le_add_left h (1 / 2))
  · next hx =>
      split
      · next hy =>
          have hceil : ⌈x - 1 / 2⌉ ≤ 0 := Int.ceil_le.mpr (by push_cast; linarith [not_le.mp hx])
          have hfloor : 0 ≤ ⌊y + 1 / 2⌋ := Int.floor_nonneg.mpr (by linarith)
          exact_mod_cast hceil.trans hfloor
      · exact_mod_cast Int.ceil_mono (sub_le_sub_right h (1 / 2))

theorem exact_round_int (x : ℚ) : ∃ n : Int, ComparisonFloats.exact.round x = n := by
  simp only [ComparisonFloats.exact]
  split
  · exact ⟨_, rfl⟩
  · exact ⟨_, rfl⟩

theorem exact_asI64_int (n : Int) : ComparisonFloats.exact.asI64 n = max (-(2 ^ 63)) (min (2 ^ 63 - 1) n) := by
  simp [ComparisonFloats.exact, PriceFloats.exact]

/-- Rounding and the bounds of `i64` keep the order of two totals. -/
theorem asI64_round_mono (h : x ≤ y) :
    ComparisonFloats.exact.asI64 (ComparisonFloats.exact.round x) ≤
      ComparisonFloats.exact.asI64 (ComparisonFloats.exact.round y) := by
  obtain ⟨m, hm⟩ := exact_round_int x
  obtain ⟨n, hn⟩ := exact_round_int y
  have hmn : m ≤ n := by
    have hround := exact_round_mono h
    rw [hm, hn] at hround
    exact_mod_cast hround
  rw [hm, hn, exact_asI64_int, exact_asI64_int]
  omega

theorem uuids_card (h : (rows.map PriceRow.uuid).Nodup) : (uuids rows).card = rows.length := by
  rw [uuids, List.toFinset_card_of_nodup h, List.length_map]

theorem entered_eq_left (wtb : CandidateSettings) (prices : PriceSource ℚ)
    (h : (prices.all.map PriceRow.uuid).Nodup) :
    (compareRankings .exact wtb prices).entered = (compareRankings .exact wtb prices).left := by
  obtain ⟨k, htop⟩ := topCandidates_eq_take wtb (filteredItems .exact wtb prices)
  have hrows : ((filteredItems .exact wtb prices).map PriceRow.uuid).Nodup := (List.filter_sublist.map _).nodup h
  have hcard (ranking : CandidateRanking) :
      (uuids ((sorted ranking (filteredItems .exact wtb prices)).take k)).card =
        min k (filteredItems .exact wtb prices).length := by
    rw [uuids_card ((List.take_sublist _ _).map _ |>.nodup (nodup_sorted hrows)), List.length_take,
      (sorted_perm ranking _).length_eq]
  simp only [compareRankings, htop]
  exact Finset.card_sdiff_comm ((hcard _).trans (hcard _).symm)

/-- The expected-profit list has the greatest total of all lists of its length. -/
theorem expectedProfit_le (wtb : CandidateSettings) (prices : PriceSource ℚ) :
    (compareRankings .exact wtb prices).expectedProfitOld ≤ (compareRankings .exact wtb prices).expectedProfitNew := by
  obtain ⟨k, htop⟩ := topCandidates_eq_take wtb (filteredItems .exact wtb prices)
  simp only [compareRankings, htop, expectedProfit]
  apply asI64_round_mono
  refine sum_le_sum_take ((pairwise_sorted .expectedProfit _).imp key_le_of_rank_le) ?_ ?_
  · have hperm := (sorted_perm .volume (filteredItems .exact wtb prices)).trans
      (sorted_perm .expectedProfit (filteredItems .exact wtb prices)).symm
    exact (List.take_sublist _ _).subperm.trans hperm.subperm
  · simp only [List.length_take, (sorted_perm _ _).length_eq]

end Compared

/-- The candidates are the first of the passing rows, in whatever order the map gives them; the list by expected profit
expects at least the profit of the list by volume. -/
theorem candidates_firstOf (wtb : CandidateSettings) (prices : PriceSource ℚ)
    (h : (prices.all.map PriceRow.uuid).Nodup) :
    (∀ all, all.Perm prices.all → getInterestingItems ComparisonFloats.exact.toCandidateFloats wtb { prices with all } =
        getInterestingItems ComparisonFloats.exact.toCandidateFloats wtb prices) ∧
      FirstOf wtb wtb.candidateRanking (filteredItems .exact wtb prices)
        (getInterestingItems ComparisonFloats.exact.toCandidateFloats wtb prices) ∧
      (compareRankings .exact wtb prices).entered = (compareRankings .exact wtb prices).left ∧
      (compareRankings .exact wtb prices).expectedProfitOld ≤
        (compareRankings .exact wtb prices).expectedProfitNew := by
  have hrows : ((filteredItems .exact wtb prices).map PriceRow.uuid).Nodup := (List.filter_sublist.map _).nodup h
  refine ⟨?_, firstOf_topCandidates hrows, entered_eq_left wtb prices h, expectedProfit_le wtb prices⟩
  intro all hperm
  have hfiltered := hperm.filter (passes ComparisonFloats.exact.toCandidateFloats wtb prices)
  have hsorted : sorted wtb.candidateRanking _ = sorted wtb.candidateRanking _ := sorted_eq_of_perm hrows hfiltered
  exact congrArg (fun sorted => if isDisabled wtb.maxBuyCandidates then sorted
    else sorted.take wtb.maxBuyCandidates.toNat) hsorted

/-- Every filter off. -/
def openSettings (maxBuyCandidates : Int) : CandidateSettings where
  toItemWtbSettings := ⟨-1, -1, -1, -1, -1, -1⟩
  volumeThreshold := -1
  tradingTaxCap := -1
  priceShiftThreshold := -1
  buyQuantity := 1
  maxBuyCandidates := maxBuyCandidates
  candidateRanking := .expectedProfit

def priced (uuid : String) (volume profit : ℚ) : PriceRow ℚ :=
  { PriceRow.lens with uuid, volume, profit }

def thinAndSpread : PriceSource ℚ where
  all := [priced "thin1" 200 5, priced "thin2" 150 5, priced "spread1" 20 60, priced "spread2" 30 (61 / 2),
    priced "low" 10 2]
  hasShift _ _ := false

theorem candidates_firstOf_thinAndSpread :
    FirstOf (openSettings 2) .expectedProfit (filteredItems .exact (openSettings 2) thinAndSpread)
        (getInterestingItems ComparisonFloats.exact.toCandidateFloats (openSettings 2) thinAndSpread) ∧
      (compareRankings .exact (openSettings 2) thinAndSpread).expectedProfitOld ≤
        (compareRankings .exact (openSettings 2) thinAndSpread).expectedProfitNew := by
  have h := candidates_firstOf (openSettings 2) thinAndSpread (by decide +kernel)
  exact ⟨h.2.1, h.2.2.2⟩

example : compareRankings .exact (openSettings 2) thinAndSpread = ⟨2, 2, 2, 2115, 500⟩ := by decide +kernel

end Quantframe.Trader
