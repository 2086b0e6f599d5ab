import Mathlib.Algebra.BigOperators.Group.List.Basic
import Mathlib.Algebra.Order.Ring.Int
import Mathlib.Tactic.Linarith
import Quantframe.Handlers.Purchases

/-!
# The cost basis of the stock

A stock row keeps one price for each of its units, rounded down again at every purchase. How much of what was spent
the row accounts for.
-/

namespace Quantframe.Handlers

open Lib Prog
open Trades (SubType)

/-! ### The row of an item after a write -/

section Rows

variable {w : World} {t : TableName} {url : String} {subType : Option SubType} {row : Row t}

theorem rowUrl_inserted (row : Row t) (id : Int) (at_ : Trades.DateTime) :
    rowUrl t (inserted t row id at_) = rowUrl t row ∧ rowSubType t (inserted t row id at_) = rowSubType t row := by
  cases t <;> exact ⟨rfl, rfl⟩

theorem rowUrl_applyTo (columns : Columns t) (now : Trades.DateTime) (row : Row t) :
    rowUrl t (applyTo t columns now row) = rowUrl t row ∧
      rowSubType t (applyTo t columns now row) = rowSubType t row := by
  cases t with
  | stockItem => exact ⟨rfl, rfl⟩
  | wishList => exact ⟨rfl, rfl⟩
  | transaction => exact columns.elim

/-- The first row of an item that had none. -/
theorem rowOf_insert (h : w.rowOf t url subType = none) (hurl : rowUrl t row = url)
    (hsub : rowSubType t row = subType) (at_ : Trades.DateTime) :
    (w.insert t row at_).rowOf t url subType = some (inserted t row (w.nextId t) at_) := by
  have htable : (w.insert t row at_).tables t =
      (w.tables t).insertOrReplace (inserted t row (w.nextId t) at_) := World.setTable_self w t _
  have hother : (((w.tables t).rows.filter fun r => rowId t r ≠ rowId t (inserted t row (w.nextId t) at_)).filter
      fun r => rowUrl t r = url).find? (fun r => rowSubType t r = subType) = none := by
    rw [List.find?_eq_none]
    intro r hr
    obtain ⟨hkept, hrurl⟩ := List.mem_filter.mp hr
    have hrsub := rowOf_none h (List.mem_filter.mp hkept).1 (of_decide_eq_true hrurl)
    rw [decide_eq_true_eq]
    exact hrsub
  have hnewurl := (rowUrl_inserted row (w.nextId t) at_).1.trans hurl
  have hnewsub := (rowUrl_inserted row (w.nextId t) at_).2.trans hsub
  rw [World.rowOf, htable, Table.rows_insertOrReplace, List.filter_append, List.find?_append, hother, Option.none_or]
  simp only [List.filter_cons, hnewurl, decide_true, if_true, List.filter_nil, List.find?_cons, hnewsub]

/-- An update leaves every row to its item. -/
theorem rowOf_updateRow (h : w.rowOf t url subType = some row) (columns : Columns t) (now : Trades.DateTime) :
    (w.updateRow t (rowId t row) columns now).rowOf t url subType = some (applyTo t columns now row) := by
  have htable : (w.updateRow t (rowId t row) columns now).tables t =
      (w.tables t).update (rowId t row) (applyTo t columns now) (rowId_applyTo t columns now) :=
    World.setTable_self w t _
  have hurl : ((fun r => decide (rowUrl t r = url)) ∘
      fun r => if rowId t r = rowId t row then applyTo t columns now r else r) =
        fun r => decide (rowUrl t r = url) := by
    funext r
    rw [Function.comp_apply]
    split
    · rw [(rowUrl_applyTo columns now r).1]
    · rfl
  have hsub : ((fun r => decide (rowSubType t r = subType)) ∘
      fun r => if rowId t r = rowId t row then applyTo t columns now r else r) =
        fun r => decide (rowSubType t r = subType) := by
    funext r
    rw [Function.comp_apply]
    split
    · rw [(rowUrl_applyTo columns now r).2]
    · rfl
  rw [World.rowOf] at h
  rw [World.rowOf, htable, Table.rows_update, List.filter_map, hurl, List.find?_map, hsub, h, Option.map_some,
    if_pos rfl]

end Rows

/-! ### One purchase -/

/-- The row accounts for all of `spent` but less than `lost`. -/
structure Accounts (row : StockItem) (spent lost : Int) : Prop where
  bought : 0 ≤ row.bought
  owned : 1 ≤ row.owned
  le : row.bought * row.owned ≤ spent
  near : spent - row.bought * row.owned < lost

/-- Rounding a quotient down loses less than the divisor. -/
theorem tdiv_mul_bounds {a b : Int} (ha : 0 ≤ a) (hb : 1 ≤ b) :
    0 ≤ a.tdiv b ∧ a.tdiv b * b ≤ a ∧ a - a.tdiv b * b < b := by
  rw [Int.tdiv_eq_ediv_of_nonneg ha]
  have hle := Int.ediv_mul_le a (by omega : b ≠ 0)
  have hlt := Int.lt_ediv_add_one_mul_self a (by omega : 0 < b)
  rw [Int.add_mul, Int.one_mul] at hlt
  exact ⟨Int.ediv_nonneg ha (by omega), hle, by omega⟩

theorem accounts_perUnit {stock : StockItem} (howned : 1 ≤ stock.owned) (hbought : 1 ≤ stock.bought) :
    Accounts (StockItemMutation.perUnit stock) stock.bought stock.owned := by
  rw [StockItemMutation.perUnit]
  split
  · obtain ⟨hnonneg, hle, hlt⟩ := tdiv_mul_bounds (by omega : 0 ≤ stock.bought) howned
    exact ⟨hnonneg, howned, hle, hlt⟩
  · next hone =>
      have hunit : stock.owned = 1 := by omega
      refine ⟨by omega, howned, ?_, ?_⟩
      · rw [hunit, Int.mul_one]
      · rw [hunit, Int.mul_one]
        omega

/-- What the row will cost and count once `stock` is added are `i64`s. -/
structure Fits (row stock : StockItem) : Prop where
  cost : InI64 (row.bought * row.owned + stock.bought)
  count : InI64 (row.owned + stock.owned)

/-- Rounding the new average down loses less than the units there are then. -/
theorem accounts_average {row stock : StockItem} {spent lost average : Int} (h : Accounts row spent lost)
    (howned : 1 ≤ stock.owned) (hbought : 1 ≤ stock.bought) (hfits : Fits row stock)
    (haverage : StockItemMutation.weightedAverage row stock = .ok average) (now : Trades.DateTime) :
    Accounts (UpdateStockItem.apply ⟨some average, some (row.grown stock.owned)⟩ now row) (spent + stock.bought)
      (lost + (row.owned + stock.owned)) := by
  have hunits := h.owned
  have hcost : 0 ≤ row.bought * row.owned := Int.mul_nonneg h.bought (by omega)
  have hcount : row.grown stock.owned = row.owned + stock.owned := wrapI64_of_inI64 hfits.count
  simp only [StockItemMutation.weightedAverage, wrapI64_add_left, wrapI64_of_inI64 hfits.cost,
    wrapI64_of_inI64 hfits.count] at haverage
  rw [if_pos (by omega), divI64, if_neg (by omega), Except.ok.injEq] at haverage
  obtain ⟨hnonneg, hle, hlt⟩ := tdiv_mul_bounds (by omega : 0 ≤ row.bought * row.owned + stock.bought)
    (by omega : 1 ≤ row.owned + stock.owned)
  rw [haverage] at hnonneg hle hlt
  have hspent := h.le
  have hnear := h.near
  refine ⟨hnonneg, ?_, ?_, ?_⟩
  · change 1 ≤ row.grown stock.owned
    omega
  · change average * row.grown stock.owned ≤ _
    rw [hcount]
    omega
  · change spent + stock.bought - average * row.grown stock.owned < _
    rw [hcount]
    omega

/-! ### A sequence of purchases -/

/-- The units of the row of an item. -/
def World.unitsOf (w : World) (url : String) (subType : Option SubType) : Int :=
  (w.rowOf .stockItem url subType).elim 0 StockItem.owned

/-- Calls of `add_item` for one item, each of at least one unit for at least one platinum and none too much for its
row, and the units of the row after each. -/
inductive Additions (url : String) (subType : Option SubType) (w : World) :
    List StockItem → List Int → World → Prop where
  | start : Additions url subType w [] [] w
  | call {stocks : List StockItem} {counts : List Int} {w' w'' : World} {sv : Services} {stock : StockItem}
      {result : Change × StockItem} :
      Additions url subType w stocks counts w' → stock.wfmUrl = url → stock.subType = subType →
        1 ≤ stock.owned → 1 ≤ stock.bought →
          (∀ row : StockItem, w'.rowOf .stockItem url subType = some row → Fits row stock) →
          (StockItemMutation.addItem stock).run.eval sv.answer w' = (.ok result, w'') →
            Additions url subType w (stocks ++ [stock]) (counts ++ [w''.unitsOf url subType]) w''

def spent (stocks : List StockItem) : Int := (stocks.map StockItem.bought).sum

/-- The row of the item, if it has been bought, accounts for what was spent. -/
def Kept (url : String) (subType : Option SubType) (stocks : List StockItem) (counts : List Int) (w : World) : Prop :=
  match w.rowOf .stockItem url subType with
  | none => stocks = [] ∧ counts = []
  | some row => Accounts row (spent stocks) counts.sum

theorem Kept.of_row {url : String} {subType : Option SubType} {stocks : List StockItem} {counts : List Int} {w : World}
    {row : StockItem} (hrow : w.rowOf .stockItem url subType = some row)
    (h : Accounts row (spent stocks) (counts.sum + row.owned)) :
    Kept url subType stocks (counts ++ [w.unitsOf url subType]) w := by
  have hcount : w.unitsOf url subType = row.owned := by rw [World.unitsOf, hrow, Option.elim_some]
  rw [Kept, hrow, hcount, List.sum_append, List.sum_singleton]
  exact h

theorem kept_call {url : String} {subType : Option SubType} {stocks : List StockItem} {counts : List Int}
    {w w' : World} {sv : Services} {stock : StockItem} {result : Change × StockItem}
    (h : Kept url subType stocks counts w) (hurl : stock.wfmUrl = url) (hsub : stock.subType = subType)
    (howned : 1 ≤ stock.owned) (hbought : 1 ≤ stock.bought)
    (hfits : ∀ row : StockItem, w.rowOf .stockItem url subType = some row → Fits row stock)
    (hrun : (StockItemMutation.addItem stock).run.eval sv.answer w = (.ok result, w')) :
    Kept url subType (stocks ++ [stock]) (counts ++ [w'.unitsOf url subType]) w' := by
  subst hurl hsub
  have hspent : spent (stocks ++ [stock]) = spent stocks + stock.bought := by
    rw [spent, List.map_append, List.sum_append, List.map_singleton, List.sum_singleton, spent]
  rw [Kept] at h
  cases hrow : w.rowOf .stockItem stock.wfmUrl stock.subType with
  | none =>
      rw [hrow] at h
      obtain ⟨rfl, rfl⟩ := h
      obtain ⟨-, rfl⟩ := (goes_addItem_none hrow).of_eval_ok hrun
      have hnew := rowOf_insert hrow (perUnit_item stock).1.1 (perUnit_item stock).1.2 sv.now
      have hfirst := accounts_perUnit howned hbought
      have hunits : (inserted .stockItem (StockItemMutation.perUnit stock) (w.nextId .stockItem) sv.now :
          StockItem).owned = stock.owned := (perUnit_item stock).2
      refine .of_row hnew ?_
      rw [hspent, hunits, spent, List.map_nil, List.sum_nil, Int.zero_add, Int.zero_add]
      exact ⟨hfirst.bought, hfirst.owned, hfirst.le, hfirst.near⟩
  | some row =>
      rw [hrow] at h
      cases haverage : StockItemMutation.weightedAverage row stock with
      | error stop =>
          obtain ⟨hend, -⟩ := (goes_addItem_panic hrow haverage).of_eval_ok hrun
          cases hend
      | ok average =>
          obtain ⟨-, rfl⟩ := (goes_addItem_some hrow haverage).of_eval_ok hrun
          have hgrown := rowOf_updateRow hrow ⟨some average, some (row.grown stock.owned)⟩ sv.now
          refine .of_row hgrown ?_
          have hcount : (applyTo .stockItem ⟨some average, some (row.grown stock.owned)⟩ sv.now row :
              StockItem).owned = row.owned + stock.owned := wrapI64_of_inI64 (hfits row hrow).count
          rw [hspent, hcount]
          exact accounts_average h howned hbought (hfits row hrow) haverage sv.now

theorem kept_of_additions {url : String} {subType : Option SubType} {w w' : World} {stocks : List StockItem}
    {counts : List Int} (hnone : w.rowOf .stockItem url subType = none)
    (hcalls : Additions url subType w stocks counts w') : Kept url subType stocks counts w' := by
  induction hcalls with
  | start =>
      rw [Kept, hnone]
      exact ⟨rfl, rfl⟩
  | call _ hurl hsub howned hbought hfits hrun ih => exact kept_call ih hurl hsub howned hbought hfits hrun

/-- After every call the row accounts for no more than was spent, and for all of it but less than the units there
were after each call. -/
theorem cost_basis_accounts {url : String} {subType : Option SubType} {w w' : World} {stocks : List StockItem}
    {counts : List Int} (hnone : w.rowOf .stockItem url subType = none)
    (hcalls : Additions url subType w stocks counts w') (hsome : stocks ≠ []) :
    ∃ row : StockItem, w'.rowOf .stockItem url subType = some row ∧ row.bought * row.owned ≤ spent stocks ∧
      spent stocks - row.bought * row.owned < counts.sum := by
  have hkept := kept_of_additions hnone hcalls
  rw [Kept] at hkept
  cases hrow : w'.rowOf .stockItem url subType with
  | none =>
      rw [hrow] at hkept
      exact absurd hkept.1 hsome
  | some row =>
      rw [hrow] at hkept
      exact ⟨row, rfl, hkept.le, hkept.near⟩

def emptyWorld : World := ⟨fun _ => .empty, fun _ => 0, ⟨[], []⟩⟩

/-- A purchase of formas, as `add_item` gets it. -/
def formaStock (quantity price : Int) : StockItem := { formaRow with owned := quantity, bought := price }

def afterAddition (w : World) (quantity price : Int) : World :=
  ((StockItemMutation.addItem (formaStock quantity price)).run.eval openServices.answer w).2

/-- Two formas for 5 platinum, then one for 4: the row says three at 2. -/
theorem cost_basis_accounts_forma :
    ∃ row : StockItem, (afterAddition (afterAddition emptyWorld 2 5) 1 4).rowOf .stockItem "forma" none = some row ∧
      row.bought * row.owned ≤ spent [formaStock 2 5, formaStock 1 4] ∧
        spent [formaStock 2 5, formaStock 1 4] - row.bought * row.owned <
          [(afterAddition emptyWorld 2 5).unitsOf "forma" none,
            (afterAddition (afterAddition emptyWorld 2 5) 1 4).unitsOf "forma" none].sum := by
  have hfirst : ∃ result, (StockItemMutation.addItem (formaStock 2 5)).run.eval openServices.answer emptyWorld =
      (.ok result, afterAddition emptyWorld 2 5) := ⟨_, rfl⟩
  have hsecond : ∃ result, (StockItemMutation.addItem (formaStock 1 4)).run.eval openServices.answer
      (afterAddition emptyWorld 2 5) = (.ok result, afterAddition (afterAddition emptyWorld 2 5) 1 4) := ⟨_, rfl⟩
  obtain ⟨_, hfirst⟩ := hfirst
  obtain ⟨_, hsecond⟩ := hsecond
  have hbegun : ∀ row : StockItem, emptyWorld.rowOf .stockItem "forma" none = some row →
      Fits row (formaStock 2 5) := by
    intro row hrow
    cases hrow
  have hfits : ∀ row : StockItem, (afterAddition emptyWorld 2 5).rowOf .stockItem "forma" none = some row →
      Fits row (formaStock 1 4) := by
    intro row hrow
    cases hrow
    exact ⟨by decide, by decide⟩
  exact cost_basis_accounts rfl
    (.call (.call .start rfl rfl (by decide) (by decide) hbegun hfirst) rfl rfl (by decide) (by decide) hfits hsecond)
    (List.cons_ne_nil _ _)

/-- Two units for 2^62 platinum each: the sum wraps, and the row says two at -2^62. -/
theorem dear_units_lost :
    ∃ row : StockItem,
      (StockItemMutation.addItem (formaStock 1 (2 ^ 62))).run.eval openServices.answer
          (afterAddition emptyWorld 1 (2 ^ 62)) =
        (.ok (.updated, row), afterAddition (afterAddition emptyWorld 1 (2 ^ 62)) 1 (2 ^ 62)) ∧
      (afterAddition (afterAddition emptyWorld 1 (2 ^ 62)) 1 (2 ^ 62)).rowOf .stockItem "forma" none = some row ∧
        row.bought = -2 ^ 62 ∧
          ¬ spent [formaStock 1 (2 ^ 62), formaStock 1 (2 ^ 62)] - row.bought * row.owned <
            [(afterAddition emptyWorld 1 (2 ^ 62)).unitsOf "forma" none,
              (afterAddition (afterAddition emptyWorld 1 (2 ^ 62)) 1 (2 ^ 62)).unitsOf "forma" none].sum := by
  refine ⟨_, rfl, rfl, rfl, ?_⟩
  decide

end Quantframe.Handlers
