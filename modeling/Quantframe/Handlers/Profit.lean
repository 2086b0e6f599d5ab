import Mathlib.Algebra.Order.Field.Basic
import Mathlib.Algebra.Order.Field.Rat
import Mathlib.Tactic.Linarith
import Mathlib.Tactic.NormNum
import Mathlib.Tactic.Ring
import Quantframe.Handlers.Purchases

/-!
# The profit of a sale

`saleFigures` divides twice before it multiplies, and by quantities that nothing before it checks.
-/

namespace Quantframe.Handlers

open Lib
open Trades (DateTime)

/-- What the sale is worth above the same number of units of the purchase. -/
def exactProfit (tx purchase : Transaction) : ℚ :=
  tx.price - tx.quantity * purchase.price / purchase.quantity

/-- The call divides by no zero, and the profit it stores is less than one platinum off. -/
structure ProfitWithinOne (tx purchase : Transaction) (r : Except Stop Transaction) : Prop where
  noPanic : r ≠ .error .panic
  within : ∀ row, r = .ok row → 1 ≤ tx.quantity → 1 ≤ purchase.quantity →
    ∃ profit, row.profit = some profit ∧ |(profit : ℚ) - exactProfit tx purchase| < 1

/-- The profit that is computed, before it wraps. -/
def unitProfit (tx purchase : Transaction) : Int :=
  (tx.price.tdiv tx.quantity - purchase.price.tdiv purchase.quantity) * tx.quantity

section Arithmetic

variable {price quantity cost count : Int}

/-- What the two divisions drop, over the purchase's quantity. -/
theorem dropped_eq (hcount : 1 ≤ count) :
    (((price.tdiv quantity - cost.tdiv count) * quantity : Int) : ℚ) - (price - quantity * cost / count) =
      ((quantity * cost.tmod count - count * price.tmod quantity : Int) : ℚ) / count := by
  have hne : (count : ℚ) ≠ 0 := by
    intro hzero
    have hcount0 : count = 0 := by exact_mod_cast hzero
    omega
  have hprice : (price : ℚ) = quantity * price.tdiv quantity + price.tmod quantity := by
    exact_mod_cast (Int.mul_tdiv_add_tmod price quantity).symm
  have hcost : (cost : ℚ) = count * cost.tdiv count + cost.tmod count := by
    exact_mod_cast (Int.mul_tdiv_add_tmod cost count).symm
  rw [eq_div_iff hne]
  push_cast
  rw [sub_mul, sub_mul (price : ℚ), div_mul_cancel₀ _ hne, hprice, hcost]
  ring

theorem dropped_lt_iff (hcount : 1 ≤ count) :
    |(((price.tdiv quantity - cost.tdiv count) * quantity : Int) : ℚ) - (price - quantity * cost / count)| < 1 ↔
      |quantity * cost.tmod count - count * price.tmod quantity| < count := by
  have hpos : (0 : ℚ) < count := by exact_mod_cast (by omega : 0 < count)
  rw [dropped_eq hcount, abs_div, abs_of_pos hpos, div_lt_one hpos]
  exact_mod_cast Iff.rfl

/-- What the two divisions drop is less than two words. -/
theorem dropped_lt (hquantity : 1 ≤ quantity) (hcount : 1 ≤ count) :
    |(((price.tdiv quantity - cost.tdiv count) * quantity : Int) : ℚ) - (price - quantity * cost / count)| <
      2 * quantity := by
  have hpos : (0 : ℚ) < count := by exact_mod_cast (by omega : 0 < count)
  have hcost : |cost.tmod count| < count :=
    abs_lt.mpr ⟨Int.lt_tmod_of_pos cost (by omega), Int.tmod_lt_of_pos cost (by omega)⟩
  have hprice : |price.tmod quantity| < quantity :=
    abs_lt.mpr ⟨Int.lt_tmod_of_pos price (by omega), Int.tmod_lt_of_pos price (by omega)⟩
  rw [dropped_eq hcount, abs_div, abs_of_pos hpos, div_lt_iff₀ hpos]
  have hdrop : |quantity * cost.tmod count - count * price.tmod quantity| < 2 * quantity * count := by
    calc |quantity * cost.tmod count - count * price.tmod quantity|
        ≤ |quantity * cost.tmod count| + |count * price.tmod quantity| := abs_sub _ _
      _ = quantity * |cost.tmod count| + count * |price.tmod quantity| := by
          rw [abs_mul, abs_mul, abs_of_pos (by omega : 0 < quantity), abs_of_pos (by omega : 0 < count)]
      _ < quantity * count + count * quantity :=
          add_lt_add (Int.mul_lt_mul_of_pos_left hcost (by omega)) (Int.mul_lt_mul_of_pos_left hprice (by omega))
      _ = 2 * quantity * count := by ring
  exact_mod_cast hdrop

/-- A profit that wraps is off by more than one. -/
theorem wrapped_lt_iff (hquantity : 1 ≤ quantity) (hi64 : quantity ≤ i64Max) (hcount : 1 ≤ count) :
    |(wrapI64 ((price.tdiv quantity - cost.tdiv count) * quantity) : ℚ) - (price - quantity * cost / count)| < 1 ↔
      InI64 ((price.tdiv quantity - cost.tdiv count) * quantity) ∧
        |quantity * cost.tmod count - count * price.tmod quantity| < count := by
  constructor
  · intro hnear
    have hfits : InI64 ((price.tdiv quantity - cost.tdiv count) * quantity) := by
      have hdropped := @dropped_lt price quantity cost count hquantity hcount
      obtain ⟨k, hk⟩ := wrapI64_eq_sub ((price.tdiv quantity - cost.tdiv count) * quantity)
      have hword : |((k * words : Int) : ℚ)| < 1 + 2 * quantity := by
        calc |((k * words : Int) : ℚ)|
            = |((((price.tdiv quantity - cost.tdiv count) * quantity : Int) : ℚ) -
                  (price - quantity * cost / count)) -
                ((wrapI64 ((price.tdiv quantity - cost.tdiv count) * quantity) : ℚ) -
                  (price - quantity * cost / count))| := by
              rw [hk]
              push_cast
              ring_nf
          _ ≤ _ := abs_sub _ _
          _ < 1 + 2 * quantity := by linarith
      have hword' : |k * words| < 1 + 2 * quantity := by exact_mod_cast hword
      have hzero : k = 0 := by
        unfold i64Max at hi64
        unfold words at hword'
        obtain ⟨hlow, hhigh⟩ := abs_lt.mp hword'
        omega
      rw [← wrapI64_eq_iff, hk, hzero, Int.zero_mul, Int.sub_zero]
    rw [wrapI64_of_inI64 hfits] at hnear
    exact ⟨hfits, (dropped_lt_iff hcount).mp hnear⟩
  · rintro ⟨hfits, hdropped⟩
    rw [wrapI64_of_inI64 hfits]
    exact (dropped_lt_iff hcount).mpr hdropped

end Arithmetic

section Sale

variable {tx purchase : Transaction}

theorem divI64_pos {a b : Int} (h : 1 ≤ b) : divI64 a b = .ok (a.tdiv b) := by
  rw [divI64, if_neg (by omega)]

theorem divI64_zero (a : Int) : divI64 a 0 = .error .panic := if_pos (.inl rfl)

/-- The sale with its figures. -/
def figured (tx purchase : Transaction) : Transaction :=
  { tx with profit := some (wrapI64 (unitProfit tx purchase)), credits := wrapI64 (tx.price * platinumTax) }

theorem saleFigures_ok (hsold : 1 ≤ tx.quantity) (hbought : 1 ≤ purchase.quantity) :
    saleFigures (some purchase) tx = .ok (figured tx purchase) := by
  simp only [saleFigures, divI64_pos hsold, divI64_pos hbought, figured, unitProfit, wrapI64_mul_left]
  rfl

theorem saleFigures_panic (h : tx.quantity = 0 ∨ purchase.quantity = 0) :
    saleFigures (some purchase) tx = .error .panic := by
  by_cases hbought : purchase.quantity = 0
  · simp only [saleFigures, hbought, divI64_zero]
    rfl
  · rcases h with hsold | hzero
    · simp only [saleFigures, hsold, divI64_zero]
      rw [divI64]
      split
      · rfl
      · rfl
    · exact absurd hzero hbought

theorem setDate_profit {parse : String → Except String DateTime} {flags : OperationSet}
    {dated : Transaction × Bool} (h : setDate parse flags tx = .ok dated) : dated.1.profit = tx.profit := by
  rw [setDate] at h
  split at h
  · cases h
    rfl
  · split at h
    · cases h
      rfl
    · cases h

theorem setDate_isErr {parse : String → Except String DateTime} {flags : OperationSet} {stop : Stop}
    (h : setDate parse flags tx = .error stop) : IsErr stop := by
  rw [setDate] at h
  split at h
  · cases h
  · split at h
    · cases h
    · exact failed_isErr h

variable {parse : String → Except String DateTime} {sv : Services} {w : World} {flags : OperationSet}

theorem prepared_sale (hsale : tx.transactionType = .sale) (hlatest : w.latestPurchase tx = some purchase) :
    prepared parse w flags tx = saleFigures (some purchase) tx >>= setDate parse flags := by
  rw [prepared, if_pos hsale, hlatest]

/-- Every way a sale of at least one unit ends, against a purchase of at least one. -/
theorem profitWithin_of_dropped (hsale : tx.transactionType = .sale)
    (hlatest : w.latestPurchase tx = some purchase) (hsold : 1 ≤ tx.quantity) (hi64 : tx.quantity ≤ i64Max)
    (hbought : 1 ≤ purchase.quantity) (hfits : InI64 (unitProfit tx purchase))
    (hdropped : |tx.quantity * purchase.price.tmod purchase.quantity -
      purchase.quantity * tx.price.tmod tx.quantity| < purchase.quantity) :
    ProfitWithinOne tx purchase ((handleTransaction parse tx flags).run.eval sv.answer w).1 := by
  obtain ⟨w', hgoes, -⟩ := goes_stored parse sv w flags tx
  rw [prepared_sale hsale hlatest, saleFigures_ok hsold hbought] at hgoes
  by_cases hplan : ∀ o ∈ transactionPlan parse w flags tx, sv.grants o
  · rw [hgoes.done hplan]
    change ProfitWithinOne tx purchase ((setDate parse flags (figured tx purchase)).map (storedRow sv w))
    cases hdate : setDate parse flags (figured tx purchase) with
    | error stop =>
        constructor
        · rintro ⟨⟩
          exact isErr_panic (setDate_isErr hdate)
        · intro row hrow
          cases hrow
    | ok dated =>
        constructor
        · intro hpanic
          cases hpanic
        · intro row hrow _ _
          cases hrow
          refine ⟨wrapI64 (unitProfit tx purchase), setDate_profit hdate, ?_⟩
          exact (wrapped_lt_iff hsold hi64 hbought).mpr ⟨hfits, hdropped⟩
  · obtain ⟨e, t, herr, hrun, -⟩ := hgoes.stopped (Performs.refused_of_not_all hplan)
    rw [hrun]
    constructor
    · rintro ⟨⟩
      exact isErr_panic herr
    · intro row hrow
      cases hrow

end Sale

/-! ### When the profit is exact -/

/-- A server that has stored one purchase. -/
def worldOf (purchase : Transaction) : World where
  tables := Function.update (fun _ => Table.empty) .transaction ⟨[purchase], List.nodup_singleton _⟩
  sequences := fun _ => 0
  orders := ⟨[], []⟩

theorem latestPurchase_worldOf {tx purchase : Transaction} (hmatch : (purchasesOf tx).admits purchase = true) :
    (worldOf purchase).latestPurchase tx = some purchase := by
  have htransactions : (worldOf purchase).transactions = [purchase] := rfl
  rw [World.latestPurchase, htransactions, List.filter_cons_of_pos hmatch]
  rfl

/-- The profit is exact to one platinum when both quantities are positive, the computed profit is an `i64`, and what
the two divisions drop cancels out to less than one. -/
theorem profit_exact_iff (tx purchase : Transaction) (hsale : tx.transactionType = .sale)
    (hmatch : (purchasesOf tx).admits purchase = true) (hsold : 0 ≤ tx.quantity) (hi64 : tx.quantity ≤ i64Max)
    (hbought : 0 ≤ purchase.quantity) :
    (∀ (parse : String → Except String DateTime) (sv : Services) (w : World) (flags : OperationSet),
      w.latestPurchase tx = some purchase →
        ProfitWithinOne tx purchase ((handleTransaction parse tx flags).run.eval sv.answer w).1) ↔
      1 ≤ tx.quantity ∧ 1 ≤ purchase.quantity ∧
        InI64 ((tx.price.tdiv tx.quantity - purchase.price.tdiv purchase.quantity) * tx.quantity) ∧
        |tx.quantity * purchase.price.tmod purchase.quantity - purchase.quantity * tx.price.tmod tx.quantity| <
          purchase.quantity := by
  constructor
  · intro h
    have hstored := h (fun _ => .error "") openServices (worldOf purchase) [] (latestPurchase_worldOf hmatch)
    obtain ⟨w', hgoes, -⟩ := goes_stored (fun _ => .error "") openServices (worldOf purchase) [] tx
    rw [hgoes.done fun _ _ => rfl, prepared_sale hsale (latestPurchase_worldOf hmatch)] at hstored
    by_cases hzero : tx.quantity = 0 ∨ purchase.quantity = 0
    · rw [saleFigures_panic hzero] at hstored
      exact absurd rfl hstored.noPanic
    · have hsold : 1 ≤ tx.quantity := by omega
      have hbought : 1 ≤ purchase.quantity := by omega
      rw [saleFigures_ok hsold hbought] at hstored
      obtain ⟨profit, hprofit, hwithin⟩ := hstored.within _ rfl hsold hbought
      cases hprofit
      exact ⟨hsold, hbought, (wrapped_lt_iff hsold hi64 hbought).mp hwithin⟩
  · rintro ⟨hsold, hbought, hfits, hdropped⟩ parse sv w flags hlatest
    exact profitWithin_of_dropped hsale hlatest hsold hi64 hbought hfits hdropped

/-- A trade of formas. -/
def formaTrade (transactionType : TransactionType) (quantity price : Int) : Transaction where
  id := 0
  wfmId := "id-forma"
  wfmUrl := "forma"
  itemName := "Forma"
  itemType := .item
  itemUniqueName := "/Forma"
  subType := none
  tags := ""
  transactionType := transactionType
  quantity := quantity
  userName := "Player"
  price := price
  profit := none
  credits := 0
  updatedAt := 0
  createdAt := 0
  properties := none

/-- The end of a sale after one purchase. -/
def saleAfter (sale purchase : Transaction) : Except Stop Transaction :=
  ((handleTransaction (fun _ => .error "") sale []).run.eval openServices.answer (worldOf purchase)).1

theorem profit_exact_iff_forma :
    ProfitWithinOne (formaTrade .sale 10 150) (formaTrade .purchase 3 30)
      (saleAfter (formaTrade .sale 10 150) (formaTrade .purchase 3 30)) :=
  (profit_exact_iff _ _ rfl rfl (by decide) (by decide) (by decide)).mpr (by decide) _ _ _ _ (latestPurchase_worldOf rfl)

/-- A sale of no units panics, ten units for 19 platinum are booked like ten for 10, and a loss that is no `i64` is
booked as a profit of 4. -/
theorem profit_not_exact :
    ¬ ProfitWithinOne (formaTrade .sale 0 5) (formaTrade .purchase 1 1)
        (saleAfter (formaTrade .sale 0 5) (formaTrade .purchase 1 1)) ∧
      ¬ ProfitWithinOne (formaTrade .sale 10 19) (formaTrade .purchase 1 1)
          (saleAfter (formaTrade .sale 10 19) (formaTrade .purchase 1 1)) ∧
        ¬ ProfitWithinOne (formaTrade .sale 2 2) (formaTrade .purchase 1 i64Max)
          (saleAfter (formaTrade .sale 2 2) (formaTrade .purchase 1 i64Max)) := by
  refine ⟨?_, ?_, ?_⟩
  · intro h
    exact h.noPanic rfl
  · intro h
    obtain ⟨profit, hprofit, hwithin⟩ := h.within _ rfl (by decide) (by decide)
    have hbooked : profit = 0 := (Option.some.inj hprofit).symm
    rw [exactProfit, hbooked] at hwithin
    norm_num [formaTrade] at hwithin
  · intro h
    obtain ⟨profit, hprofit, hwithin⟩ := h.within _ rfl (by decide) (by decide)
    have hbooked : profit = 4 := (Option.some.inj hprofit).symm
    rw [exactProfit, hbooked] at hwithin
    norm_num [formaTrade, i64Max] at hwithin

end Quantframe.Handlers
