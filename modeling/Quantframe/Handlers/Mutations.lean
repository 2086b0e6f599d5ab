import Quantframe.Handlers.Statements
import Quantframe.Lib.Words

/-!
# Mutations of the stock, the wish list and the transactions

Each function waits for one statement at a time and stops at the first that fails.
-/

namespace Quantframe.Handlers

open Lib
open Trades (SubType DateTime Error)

/-- What a mutation reports it did. -/
inductive Change where
  | created
  | updated
  | deleted
  | notFound
  deriving DecidableEq, Repr

def Change.asStr : Change → String
  | .created => "Created"
  | .updated => "Updated"
  | .deleted => "Deleted"
  | .notFound => "NotFound"

def failed {α : Type} (component message : String) : Except Stop α :=
  .error (.err ⟨component, message⟩)

/-- `i64` division, which panics on zero and where the quotient is no `i64`. -/
def divI64 (a b : Int) : Except Stop Int :=
  if b = 0 ∨ (a = i64Min ∧ b = -1) then .error .panic else .ok (a.tdiv b)

/-! ### What the two tables of items have in common -/

/-- `find_by_url_name`. -/
def findByUrlName (t : TableName) (component message url : String) : Handler (List (Row t)) :=
  call (.statement t (.findByUrlName url)) (fromDb component message)

/-- `update_by_id` and `delete_by_id` look the row up first. -/
def findForWrite (t : TableName) (caller : Caller) (component label : String) (id : Int) :
    Handler (Row t) := do
  let found ← call (.statement t (.findById caller id))
    (fromDb component ("Failed to find " ++ label ++ " by ID"))
  ofExcept (found.elim (failed component (label ++ " not found")) .ok)

def updateById (t : TableName) (component label : String) (id : Int) (columns : Columns t) :
    Handler (Row t) := do
  let _ ← findForWrite t .updateById (component ++ ":UpdateById") label id
  call (.statement t (.update id columns))
    (fromDb (component ++ ":UpdateById") ("Failed to update " ++ label))

def deleteById (t : TableName) (component label : String) (id : Int) : Handler Unit := do
  let _ ← findForWrite t .deleteById (component ++ ":DeleteById") label id
  call (.statement t (.delete id)) (fromDb (component ++ ":DeleteById") ("Failed to delete " ++ label))

/-- A quantity of 0 counts as one. -/
def orOne (quantity : Int) : Int := if quantity = 0 then 1 else quantity

/-! ### Stock items -/

namespace StockItemQuery

def findByUrlName (url : String) : Handler (List StockItem) :=
  Handlers.findByUrlName .stockItem "StockItemQuery:FindByUrlName"
    "Failed to find Stock Items by URL name" url

def findByUrlNameAndSubType (url : String) (subType : Option SubType) : Handler (Option StockItem) := do
  let items ← findByUrlName url
  return items.find? fun item => item.subType = subType

end StockItemQuery

namespace StockItemMutation

def create (item : StockItem) : Handler StockItem :=
  call (.statement .stockItem (.insert item none))
    (fromDb "StockItemMutation:Create" "Failed to create Stock Item")

def updateById (id : Int) (input : UpdateStockItem) : Handler StockItem :=
  Handlers.updateById .stockItem "StockItemMutation" "Stock Item" id input

def deleteById (id : Int) : Handler Unit :=
  Handlers.deleteById .stockItem "StockItemMutation" "Stock Item" id

def soldById (id quantity : Int) : Handler (Change × Option StockItem) := do
  match ← call (.statement .stockItem (.findById .soldById id))
      (fromDb "StockItemMutation:SoldById" "Failed to find Stock Item by ID") with
  | none => return (.notFound, none)
  | some (item : StockItem) =>
      let owned := wrapI64 (item.owned - orOne quantity)
      if owned ≤ 0 then
        deleteById id
        return (.deleted, some item)
      else
        let _ ← updateById item.id ⟨none, some owned⟩
        return (.updated, some item)

def soldByUrlAndSubType (url : String) (subType : Option SubType) (quantity : Int) :
    Handler (Change × Option StockItem) := do
  let items ← StockItemQuery.findByUrlName url
  match items.find? fun item => item.subType = subType with
  | some item => soldById item.id quantity
  | none => return (.notFound, none)

/-- The platinum for one unit once more of an item has been bought. -/
def weightedAverage (item stock : StockItem) : Except Stop Int :=
  let totalOwned := wrapI64 (item.owned + stock.owned)
  let totalCost := wrapI64 (wrapI64 (item.bought * item.owned) + stock.bought)
  if 0 < stock.bought then divI64 totalCost totalOwned else .ok item.bought

/-- The first row of an item. -/
def perUnit (stock : StockItem) : StockItem :=
  if 1 < stock.owned then { stock with bought := stock.bought.tdiv stock.owned } else stock

def addItem (stock : StockItem) : Handler (Change × StockItem) := do
  match ← StockItemQuery.findByUrlNameAndSubType stock.wfmUrl stock.subType with
  | none =>
      let insert ← create (perUnit stock)
      return (.created, insert)
  | some item =>
      let average ← ofExcept (weightedAverage item stock)
      let upItem ← updateById item.id ⟨some average, some (wrapI64 (item.owned + stock.owned))⟩
      return (.updated, upItem)

end StockItemMutation

/-! ### Wish-list items -/

namespace WishListQuery

def findByUrlName (url : String) : Handler (List WishListItem) :=
  Handlers.findByUrlName .wishList "WishListQuery:FindByUrlName"
    "Failed to find Wish List items by URL name" url

def findByUrlNameAndSubType (url : String) (subType : Option SubType) :
    Handler (Option WishListItem) := do
  let items ← findByUrlName url
  return items.find? fun item => item.subType = subType

end WishListQuery

namespace WishListMutation

def create (item : WishListItem) : Handler WishListItem :=
  call (.statement .wishList (.insert item none))
    (fromDb "WishListMutation:Create" "Failed to create Wish List item")

def updateById (id : Int) (input : UpdateWishList) : Handler WishListItem :=
  Handlers.updateById .wishList "WishListMutation" "Wish List item" id input

def deleteById (id : Int) : Handler Unit :=
  Handlers.deleteById .wishList "WishListMutation" "Wish List item" id

def addItem (item : WishListItem) : Handler (Change × WishListItem) := do
  match ← WishListQuery.findByUrlNameAndSubType item.wfmUrl item.subType with
  | none =>
      let insert ← create item
      return (.created, insert)
  | some foundItem =>
      let upItem ← updateById foundItem.id ⟨some (wrapI64 (foundItem.quantity + item.quantity))⟩
      return (.updated, upItem)

/-- The item it returns has the quantity left. -/
def boughtById (id quantity : Int) : Handler (Change × Option WishListItem) := do
  match ← call (.statement .wishList (.findById .boughtById id))
      (fromDb "WishListMutation:BoughtById" "Failed to find Wish List item by ID") with
  | none => return (.notFound, none)
  | some (found : WishListItem) =>
      let item := { found with quantity := wrapI64 (found.quantity - orOne quantity) }
      if item.quantity ≤ 0 then
        deleteById id
        return (.deleted, some item)
      else
        let _ ← updateById id ⟨some item.quantity⟩
        return (.updated, some item)

/-- Id `-1` stands for no row. -/
def boughtByUrlAndSubType (url : String) (subType : Option SubType) (quantity : Int) :
    Handler (Change × Option WishListItem) := do
  let item ← WishListQuery.findByUrlNameAndSubType url subType
  boughtById (item.elim (-1) WishListItem.id) quantity

end WishListMutation

/-! ### Transactions -/

/-- One page, counted from 1; the first statement counts the matches. -/
def TransactionQuery.getAll (filter : TransactionFilter) (page limit : Nat) :
    Handler (List Transaction) := do
  let total ← call (.countTransactions filter)
    (fromDb "QueryHelper:PaginateQuery" "Failed to count total items for pagination")
  let totalPages := if total = 0 then 1 else (total + limit - 1) / limit
  call (.fetchTransactions filter (min (max page 1) totalPages - 1) limit)
    (fromDb "QueryHelper:PaginateQuery" "Failed to fetch paginated items")

/-- The times of the new row are its `created_at` unless the current date is asked for. -/
def TransactionMutation.create (tx : Transaction) (useCurrentDate : Bool) : Handler Transaction :=
  call (.statement .transaction (.insert tx (if useCurrentDate then none else some tx.createdAt)))
    (fromDb "TransactionMutation:Create" "Failed to create Transaction")

end Quantframe.Handlers
