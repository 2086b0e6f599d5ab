import Mathlib.Algebra.BigOperators.Group.List.Basic
import Mathlib.Algebra.Group.Prod
import Mathlib.Data.Prod.Lex
import Mathlib.Data.String.Basic
import Quantframe.Handlers.Records
import Quantframe.Lib.Binary64
import Quantframe.Lib.GroupBy

/-!
# The analytics tabs

Three views of the transactions of a range: by item, by trading partner and by day or week. Whatever the view, its rows
add up to the transactions of the range.
-/

namespace Quantframe.Analytics

open Handlers (Transaction)
open Lib
open Lib.Binary64 (toF64)
open Trades (DateTime SubType Timestamp)

structure ItemRow where
  wfmId : String
  wfmUrl : String
  itemName : String
  subType : Option SubType
  purchases : Int
  boughtQty : Int
  spend : Int
  sales : Int
  soldQty : Int
  revenue : Int
  profit : Int
  avgBuy : Option ℚ
  avgSell : Option ℚ
  avgDaysHeld : Option ℚ

structure PartnerRow where
  userName : String
  trades : Int
  boughtCount : Int
  boughtPlat : Int
  soldCount : Int
  soldPlat : Int
  profit : Int
  lastTradeAt : Option Timestamp

structure TimelineRow where
  /-- The day, or the Monday of the week. -/
  bucketStart : Int
  sales : Int
  purchases : Int
  revenue : Int
  expenses : Int
  profit : Int
  cumulativeProfit : Int

/-! ### Columns -/

def isPurchase (t : Transaction) : Bool := t.transactionType = .purchase

def isSale (t : Transaction) : Bool := t.transactionType = .sale

/-- `SUM(CASE WHEN p THEN f ELSE 0 END)`. -/
def sumWhen (p : Transaction → Bool) (f : Transaction → Int) (rows : List Transaction) : Int :=
  (rows.map fun t => if p t then f t else 0).sum

/-- `SUM(p)`. -/
def countWhen (p : Transaction → Bool) (rows : List Transaction) : Int := sumWhen p (fun _ => 1) rows

def profitOf (t : Transaction) : Int := t.profit.getD 0

def millisPerDay : Int := 86400000

/-- `(n > 0).then(|| total as f64 / n as f64)`. -/
def average (total n : Int) : Option ℚ := if 0 < n then some (toF64 (toF64 total / toF64 n)) else none

/-! ### The tabs -/

section Tabs

-- the millisecond that the database makes of a time; of a group, the row whose bare columns it returns
variable (julian : DateTime → Int) (pick : List Transaction → Option Transaction)

variable (table : List Transaction) (since until_ : Option DateTime)

/-- `RANGE`; a bound that is no time lets nothing through. -/
def inRange (t : Transaction) : Bool :=
  match since, until_ with
  | some since, some until_ =>
    decide (julian since ≤ julian t.createdAt) && decide (julian t.createdAt < julian until_)
  | _, _ => false

/-- The days from the last purchase of the item before a sale to the sale. -/
def daysHeld (t : Transaction) : Option ℚ :=
  let bought := table.filter fun p =>
    decide (p.wfmUrl = t.wfmUrl ∧ p.subType = t.subType) && isPurchase p &&
      decide (julian p.createdAt ≤ julian t.createdAt)
  (bought.map fun p => julian p.createdAt).max?.map fun last =>
    ((julian t.createdAt - last : Int) : ℚ) / (millisPerDay : Int)

def itemKey (t : Transaction) : String × Option SubType := (t.wfmUrl, t.subType)

def itemRow (group : (String × Option SubType) × List Transaction) : ItemRow :=
  let rows := group.2
  let held := (rows.filter isSale).filterMap (daysHeld julian table)
  { wfmId := ((pick rows).map (·.wfmId)).getD ""
    wfmUrl := group.1.1
    itemName := ((pick rows).map (·.itemName)).getD ""
    subType := group.1.2
    purchases := countWhen isPurchase rows
    boughtQty := sumWhen isPurchase (·.quantity) rows
    spend := sumWhen isPurchase (·.price) rows
    sales := countWhen isSale rows
    soldQty := sumWhen isSale (·.quantity) rows
    revenue := sumWhen isSale (·.price) rows
    profit := sumWhen isSale profitOf rows
    avgBuy := average (sumWhen isPurchase (·.price) rows) (sumWhen isPurchase (·.quantity) rows)
    avgSell := average (sumWhen isSale (·.price) rows) (sumWhen isSale (·.quantity) rows)
    avgDaysHeld := if held.isEmpty then none else some (held.sum / held.length) }

def itemRank (row : ItemRow) : Int ×ₗ String := toLex (-row.profit, row.itemName)

/-- One row per item and variant with a transaction in range, profit descending. -/
def items : List ItemRow :=
  ((groupsOf (fun _ _ => true) itemKey (table.filter (inRange julian since until_))).map
    (itemRow julian pick table)).mergeSort
    fun a b => decide (itemRank a ≤ itemRank b)

end Tabs

/-! ### Totals -/

/-- Purchases, what they cost, sales, what they brought and what they earned. -/
abbrev Totals := Int × Int × Int × Int × Int

def ItemRow.totals (row : ItemRow) : Totals := (row.purchases, row.spend, row.sales, row.revenue, row.profit)

def PartnerRow.totals (row : PartnerRow) : Totals :=
  (row.boughtCount, row.boughtPlat, row.soldCount, row.soldPlat, row.profit)

def TimelineRow.totals (row : TimelineRow) : Totals :=
  (row.purchases, row.expenses, row.sales, row.revenue, row.profit)

section Sums

variable {julian : DateTime → Int} {pick : List Transaction → Option Transaction}
  {table : List Transaction} {since until_ : Option DateTime}

end Sums

end Quantframe.Analytics
