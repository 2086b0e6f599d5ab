import Quantframe.Handlers.Mutations
import Quantframe.Lib.Turns
import Quantframe.Trader.Items

/-!
# The rows a cycle reads and writes back

The stock and the wish list are shared with requests that run at the same time. A cycle holds a copy of a
row from its read to its write-back, which sets every column the copy has. Between any two of its
statements and market writes the requests perform as many of their operations as they like.
-/

namespace Quantframe.Trader

open Lib
open Handlers (TableName Row Services Op Failure PriceHistory Json StockStatus fromDb)
open Trades (Error SubType DateTime)

/-! ### What counts of a row -/

/-- How much there is of an item, and what one unit was bought for. -/
structure Count where
  quantity : Int
  bought : Int
  deriving DecidableEq, Repr

structure Holding where
  id : Int
  url : String
  subType : Option SubType
  count : Count
  deriving DecidableEq, Repr

def countOf : (t : TableName) → Row t → Count
  | .stockItem, r => ⟨Handlers.StockItem.owned r, Handlers.StockItem.bought r⟩
  | .wishList, r => ⟨Handlers.WishListItem.quantity r, 0⟩
  | .transaction, r => ⟨Handlers.Transaction.quantity r, Handlers.Transaction.price r⟩

def holding (t : TableName) (r : Row t) : Holding :=
  ⟨Handlers.rowId t r, Handlers.rowUrl t r, Handlers.rowSubType t r, countOf t r⟩

def holdings (w : Handlers.World) (t : TableName) : List Holding := (w.tables t).rows.map (holding t)

/-! ### Reading a row and writing it back -/

/-- What the database and the clock do besides storing rows. -/
structure Database (X : Type) where
  /-- Whether the next statement fails. -/
  failure : X → Option Failure × X
  now : X → DateTime × X
  /-- `add_price_history`, at the price and the time of the cycle. -/
  addPriceHistory : List PriceHistory → X → List PriceHistory × X
  /-- `get_property_value`. -/
  getPropertyValue : Option Json → String → Option Int
  /-- What `apply_to` makes of the stored properties and the given ones. -/
  mergeProperties : Option Json → Option Json → Option Json

section Columns

variable {X : Type} (db : Database X)

def listingOf (listPrice : Option Int) (status : StockStatus) (isHidden : Bool) : Listing where
  listPrice := listPrice
  status := status
  isHidden := isHidden

def StockItem.ofRow (row : Handlers.StockItem) : StockItem where
  id := row.id
  bought := row.bought
  owned := row.owned
  subType := row.subType
  listing := listingOf row.listPrice row.status row.isHidden
  priceHistory := row.priceHistory
  properties := row.properties
  minPrice := db.getPropertyValue row.properties "min_price"
  minProfit := db.getPropertyValue row.properties "min_profit"
  minSma := db.getPropertyValue row.properties "min_sma"

def WishListItem.ofRow (row : Handlers.WishListItem) : WishListItem where
  id := row.id
  quantity := row.quantity
  listing := listingOf row.listPrice row.status row.isHidden
  priceHistory := row.priceHistory
  properties := row.properties
  minPrice := (db.getPropertyValue row.properties "min_price").getD 0
  maxPrice := (db.getPropertyValue row.properties "max_price").getD 0

/-- What a cycle writes back to a row: `set` is given the price history, the time and the row as
`update_by_id` found it. -/
structure Copy (t : TableName) where
  id : Int
  count : Count
  priceHistory : List PriceHistory
  set : List PriceHistory → DateTime → Row t → Row t → Row t
  rowId_set : ∀ history now found row, Handlers.rowId t (set history now found row) = Handlers.rowId t row
  countOf_set : ∀ history now found row, countOf t (set history now found row) = count

/-- `to_update`. -/
def StockItem.toUpdate (item : StockItem) : Copy .stockItem where
  id := item.id
  count := ⟨item.owned, item.bought⟩
  priceHistory := item.priceHistory
  set history now (found : Handlers.StockItem) (row : Handlers.StockItem) :=
    { row with
      owned := item.owned
      bought := item.bought
      listPrice := item.listing.listPrice
      isHidden := item.listing.isHidden
      status := item.listing.status
      priceHistory := history
      subType := item.subType
      properties := db.mergeProperties found.properties item.properties
      updatedAt := now }
  rowId_set _ _ _ _ := rfl
  countOf_set _ _ _ _ := rfl

/-- `to_update`; the sub-type is not among its columns. -/
def WishListItem.toUpdate (item : WishListItem) : Copy .wishList where
  id := item.id
  count := ⟨item.quantity, 0⟩
  priceHistory := item.priceHistory
  set history now (found : Handlers.WishListItem) (row : Handlers.WishListItem) :=
    { row with
      quantity := item.quantity
      listPrice := item.listing.listPrice
      isHidden := item.listing.isHidden
      priceHistory := history
      status := item.listing.status
      properties := db.mergeProperties found.properties item.properties
      updatedAt := now }
  rowId_set _ _ _ _ := rfl
  countOf_set _ _ _ _ := rfl

end Columns

/-- A write-back: what it sets, and what the row had just before, unless it was gone. -/
structure WriteBack where
  table : TableName
  held : Count
  stored : Option Count
  deriving DecidableEq, Repr

/-- What only the cycle sees; `writeBacks` only tells what happens. -/
structure Own (X : Type) where
  ext : X
  writeBacks : List WriteBack

/-- The tables, the requests on their way and the cycle's own outside. -/
abbrev Shop (X : Type) := Shared Services Op Handlers.Reply Handlers.World (Own X)

namespace Shop

variable {X α : Type} (db : Database X)

def request (q : X → α × X) : Shop X → α × Shop X :=
  Shared.inTurn Services.answer (Shared.alone fun l => ((q l.ext).1, { l with ext := (q l.ext).2 }))

/-- A statement, unless it fails. -/
def statement (failed : Failure → Error) (run : Shop X → Except Error α × Shop X) :
    Shop X → Except Error α × Shop X :=
  Shared.inTurn Services.answer fun s =>
    match db.failure s.own.ext with
    | (some failure, ext) => (.error (failed failure), { s with own := { s.own with ext := ext } })
    | (none, ext) => run { s with own := { s.own with ext := ext } }

def findById (t : TableName) (failed : Failure → Error) (id : Int) :
    Shop X → Except Error (Option (Row t)) × Shop X :=
  statement db failed fun s => (.ok ((s.store.tables t).lookup id), s)

def wroteBack (s : Shop X) (t : TableName) (held : Count) (stored : Option (Row t)) : Shop X :=
  { s with own := { s.own with writeBacks := s.own.writeBacks ++ [⟨t, held, stored.map (countOf t)⟩] } }

/-- The `UPDATE` of `update_by_id`, with the row its `SELECT` found. -/
def update (t : TableName) (component label : String) (copy : Copy t) (found : Row t) :
    Shop X → Except Error Unit × Shop X :=
  let failed := fromDb component ("Failed to update " ++ label)
  statement db failed fun s =>
    match (s.store.tables t).lookup copy.id with
    | none => (.error (failed "None of the records are updated"), wroteBack s t copy.count none)
    | some row =>
        let (history, ext) := db.addPriceHistory copy.priceHistory s.own.ext
        let (now, ext) := db.now ext
        let s := wroteBack { s with own := { s.own with ext := ext } } t copy.count (some row)
        (.ok (), { s with
          store := s.store.setTable t ((s.store.tables t).update copy.id (copy.set history now found)
            (copy.rowId_set history now found)) })

/-- `update_by_id`: it looks the row up first. -/
def updateById (t : TableName) (component label : String) (copy : Copy t) (s : Shop X) :
    Except Error Unit × Shop X :=
  match findById db t (fromDb component ("Failed to find " ++ label ++ " by ID")) copy.id s with
  | (.error e, s) => (.error e, s)
  | (.ok none, s) => (.error ⟨component, label ++ " not found"⟩, wroteBack s t copy.count none)
  | (.ok (some found), s) => update db t component label copy found s

end Shop

/-- The outside of a cycle whose rows are in a shop; the answers of `out` about rows are not used. -/
def Outside.inShop {X : Type} (out : Outside X) (db : Database X) : Outside (Shop X) where
  create params := Shop.request (out.create params)
  update id params := Shop.request (out.update id params)
  delete id := Shop.request (out.delete id)
  myOrders := Shop.request out.myOrders
  uuid := Shop.request out.uuid
  running := Shop.request out.running
  justStarted := Shop.request out.justStarted
  now := Shop.request out.now
  interestingItems := Shop.request out.interestingItems
  wishListKeys := Shop.request out.wishListKeys
  liveOrders url := Shop.request (out.liveOrders url)
  stockItem id s :=
    let (found, s) := Shop.findById db .stockItem
      (fromDb "StockItemQuery:FindById" "Failed to find Stock Item by ID") id s
    (found.map (Option.map (StockItem.ofRow db)), s)
  wishListItem id s :=
    let (found, s) := Shop.findById db .wishList
      (fromDb "WishListQuery:GetById" "Failed to get Wish List item by ID") id s
    (found.map (Option.map (WishListItem.ofRow db)), s)
  updateStockItem item :=
    Shop.updateById db .stockItem "StockItemMutation:UpdateById" "Stock Item" (item.toUpdate db)
  updateWishListItem item :=
    Shop.updateById db .wishList "WishListMutation:UpdateById" "Wish List item" (item.toUpdate db)

end Quantframe.Trader
