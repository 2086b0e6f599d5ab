import Mathlib.Data.List.Sort
import Mathlib.Logic.Function.Basic
import Quantframe.Handlers.Records
import Quantframe.Lib.Plan
import Quantframe.Lib.Table
import Quantframe.Market.Orders

/-!
# Statements, market requests and what they do

Everything a handler waits for is one operation, and each can fail. A failed statement or request
changes nothing. One call is run by itself here; `Services` says which of its operations fail.
-/

namespace Quantframe.Handlers

open Lib
open Trades (SubType DateTime Error)
open Market (WFSubType OrderList UpdateOrderParams)

inductive TableName where
  | stockItem
  | wishList
  | transaction
  deriving DecidableEq, Repr

abbrev Row : TableName → Type
  | .stockItem => StockItem
  | .wishList => WishListItem
  | .transaction => Transaction

/-- The columns the handlers set of a stock row; the rest of `UpdateStockItem` they leave. -/
structure UpdateStockItem where
  bought : Option Int
  owned : Option Int
  deriving DecidableEq, Repr

structure UpdateWishList where
  quantity : Option Int
  deriving DecidableEq, Repr

/-- No handler updates a transaction. -/
abbrev Columns : TableName → Type
  | .stockItem => UpdateStockItem
  | .wishList => UpdateWishList
  | .transaction => Empty

def rowId : (t : TableName) → Row t → Int
  | .stockItem, r => StockItem.id r
  | .wishList, r => WishListItem.id r
  | .transaction, r => Transaction.id r

def rowUrl : (t : TableName) → Row t → String
  | .stockItem, r => StockItem.wfmUrl r
  | .wishList, r => WishListItem.wfmUrl r
  | .transaction, r => Transaction.wfmUrl r

def rowSubType : (t : TableName) → Row t → Option SubType
  | .stockItem, r => StockItem.subType r
  | .wishList, r => WishListItem.subType r
  | .transaction, r => Transaction.subType r

def UpdateStockItem.apply (u : UpdateStockItem) (now : DateTime) (row : StockItem) : StockItem :=
  { row with bought := u.bought.getD row.bought, owned := u.owned.getD row.owned, updatedAt := now }

def UpdateWishList.apply (u : UpdateWishList) (now : DateTime) (row : WishListItem) : WishListItem :=
  { row with quantity := u.quantity.getD row.quantity, updatedAt := now }

/-- `UPDATE`; `updated_at` is set as well. -/
def applyTo : (t : TableName) → Columns t → DateTime → Row t → Row t
  | .stockItem, u, now, r => UpdateStockItem.apply u now r
  | .wishList, u, now, r => UpdateWishList.apply u now r

theorem rowId_applyTo (t : TableName) (u : Columns t) (now : DateTime) (row : Row t) :
    rowId t (applyTo t u now row) = rowId t row := by
  cases t with
  | stockItem => rfl
  | wishList => rfl
  | transaction => exact u.elim

/-- The row an `INSERT` stores; the database chooses the id. -/
def inserted : (t : TableName) → Row t → Int → DateTime → Row t
  | .stockItem, r, id, at_ => { (r : StockItem) with id := id, createdAt := at_, updatedAt := at_ }
  | .wishList, r, id, at_ => { (r : WishListItem) with id := id, createdAt := at_, updatedAt := at_ }
  | .transaction, r, id, at_ => { (r : Transaction) with id := id, createdAt := at_, updatedAt := at_ }

theorem rowId_inserted (t : TableName) (row : Row t) (id : Int) (at_ : DateTime) :
    rowId t (inserted t row id at_) = id := by
  cases t with
  | stockItem => rfl
  | wishList => rfl
  | transaction => rfl

/-- The function that looks a row up by its id. -/
inductive Caller where
  | soldById
  | boughtById
  | updateById
  | deleteById
  deriving DecidableEq, Repr

/-- A statement on one table. -/
inductive Statement (t : TableName) where
  | findByUrlName (url : String)
  | findById (caller : Caller) (id : Int)
  /-- Both times of the new row are the current one unless given. -/
  | insert (row : Row t) (createdAt : Option DateTime)
  | update (id : Int) (columns : Columns t)
  | delete (id : Int)

abbrev Statement.Result {t : TableName} : Statement t → Type
  | .findByUrlName _ => List (Row t)
  | .findById _ _ => Option (Row t)
  | .insert _ _ => Row t
  | .update _ _ => Row t
  | .delete _ => Unit

/-- Which transactions `TransactionQuery::get_all` is asked for; no sub-type means any. -/
structure TransactionFilter where
  transactionType : TransactionType
  wfmId : String
  subType : Option SubType
  deriving DecidableEq, Repr

def TransactionFilter.admits (filter : TransactionFilter) (tx : Transaction) : Bool :=
  tx.transactionType = filter.transactionType && tx.wfmId = filter.wfmId &&
    (filter.subType.isNone || tx.subType = filter.subType)

/-- The settings and the order cache, which `handle_wfm_item` reads together. -/
structure App where
  reportToWfm : Bool
  cacheOrders : OrderList

inductive Op where
  | cacheClient
  | appState
  | closeOrder (id : String) (quantity : Nat)
  | deleteOrder (id : String)
  | updateOrder (id : String) (args : UpdateOrderParams)
  | statement (t : TableName) (s : Statement t)
  | countTransactions (filter : TransactionFilter)
  | fetchTransactions (filter : TransactionFilter) (page limit : Nat)

/-- What an operation gives when it succeeds. -/
abbrev Op.Result : Op → Type
  | .cacheClient => String → Option CacheItem
  | .appState => App
  | .closeOrder _ _ => Unit
  | .deleteOrder _ => Unit
  | .updateOrder _ _ => Unit
  | .statement _ s => s.Result
  | .countTransactions _ => Nat
  | .fetchTransactions _ _ _ => List Transaction

abbrev Reply (o : Op) : Type := Except Failure o.Result

/-- How a handler ends early: with an error, or with a panic. -/
inductive Stop where
  | err (error : Error)
  | panic
  deriving DecidableEq, Repr

abbrev Handler (α : Type) := ExceptT Stop (Prog Op Reply) α

/-- Performs an operation and returns its error, if any, as `mapErr` words it. -/
def call (o : Op) (mapErr : Failure → Error) : Handler o.Result :=
  ExceptT.mk (Prog.perform o >>= fun r => .done (r.mapError fun f => .err (mapErr f)))

/-- A step without an operation. -/
def ofExcept {α : Type} (r : Except Stop α) : Handler α := ExceptT.mk (.done r)

/-! ### What the operations do -/

abbrev Tables := (t : TableName) → Table (rowId t)

structure World where
  tables : Tables
  /-- The largest id each table ever had. -/
  sequences : TableName → Int
  orders : OrderList

/-- What one call finds: which operations fail, the clock, the settings and the item cache. -/
structure Services where
  fails : Op → Option Failure
  now : DateTime
  reportToWfm : Bool
  /-- The item with a name, a slug, a unique name or an id. -/
  tradableItem : String → Option CacheItem

def Services.grants (sv : Services) (o : Op) : Prop := sv.fails o = none

instance (sv : Services) : DecidablePred sv.grants :=
  fun o => decidable_of_iff (sv.fails o).isNone Option.isNone_iff_eq_none

namespace World

def setTable (w : World) (t : TableName) (table : Table (rowId t)) : World :=
  { w with tables := Function.update w.tables t table }

@[simp] theorem setTable_orders (w : World) (t : TableName) (table : Table (rowId t)) :
    (w.setTable t table).orders = w.orders := rfl

@[simp] theorem setTable_self (w : World) (t : TableName) (table : Table (rowId t)) :
    (w.setTable t table).tables t = table := Function.update_self ..

theorem setTable_of_ne (w : World) {t t' : TableName} (h : t' ≠ t) (table : Table (rowId t)) :
    (w.setTable t table).tables t' = w.tables t' := Function.update_of_ne h ..

/-- The id `AUTOINCREMENT` gives the next row. -/
def nextId (w : World) (t : TableName) : Int :=
  ((w.tables t).rows.map (rowId t)).foldl max (w.sequences t) + 1

/-- A new row under the next id. -/
def insert (w : World) (t : TableName) (row : Row t) (at_ : DateTime) : World :=
  { w.setTable t ((w.tables t).insertOrReplace (inserted t row (w.nextId t) at_)) with
    sequences := Function.update w.sequences t (w.nextId t) }

def updateRow (w : World) (t : TableName) (id : Int) (columns : Columns t) (now : DateTime) : World :=
  w.setTable t ((w.tables t).update id (applyTo t columns now) (rowId_applyTo t columns now))

def deleteRow (w : World) (t : TableName) (id : Int) : World :=
  w.setTable t ((w.tables t).delete id)

/-- The first row in the table with a slug and a sub-type. -/
def rowOf (w : World) (t : TableName) (url : String) (subType : Option SubType) : Option (Row t) :=
  ((w.tables t).rows.filter fun row => rowUrl t row = url).find? fun row => rowSubType t row = subType

def transactions (w : World) : List Transaction := (w.tables .transaction).rows

end World

/-- `ORDER BY created_at DESC`. -/
def newestFirst (txs : List Transaction) : List Transaction :=
  txs.insertionSort fun a b => b.createdAt ≤ a.createdAt

def Statement.run (now : DateTime) (w : World) (t : TableName) :
    (s : Statement t) → Except Failure s.Result × World
  | .findByUrlName url => (.ok ((w.tables t).rows.filter fun row => rowUrl t row = url), w)
  | .findById _ id => (.ok ((w.tables t).lookup id), w)
  | .insert row createdAt =>
      let at_ := createdAt.getD now
      (.ok (inserted t row (w.nextId t) at_), w.insert t row at_)
  | .update id columns =>
      match (w.tables t).lookup id with
      | some row => (.ok (applyTo t columns now row), w.updateRow t id columns now)
      | none => (.error "None of the records are updated", w)
  | .delete id => (.ok (), w.deleteRow t id)

/-- An operation that does not fail. -/
def Services.perform (sv : Services) : (o : Op) → World → Reply o × World
  | .cacheClient, w => (.ok sv.tradableItem, w)
  | .appState, w => (.ok ⟨sv.reportToWfm, w.orders⟩, w)
  | .closeOrder id quantity, w => (.ok (), { w with orders := w.orders.closeOrder id quantity })
  | .deleteOrder id, w => (.ok (), { w with orders := w.orders.removeById id })
  | .updateOrder id args, w => (.ok (), { w with orders := w.orders.update id args })
  | .statement t s, w => s.run sv.now w t
  | .countTransactions filter, w => (.ok (w.transactions.countP filter.admits), w)
  | .fetchTransactions filter page limit, w =>
      (.ok (((newestFirst (w.transactions.filter filter.admits)).drop (page * limit)).take limit), w)

def Services.answer (sv : Services) (o : Op) (w : World) : Reply o × World :=
  match sv.fails o with
  | some failure => (.error failure, w)
  | none => sv.perform o w

end Quantframe.Handlers
