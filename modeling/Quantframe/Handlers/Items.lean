import Quantframe.Handlers.Mutations

/-!
# The item handlers

`handle_item` and `handle_wish_list` change the stock or the wish list, then the market order, then
write the transaction. No database transaction spans the three.
-/

namespace Quantframe.Handlers

open Lib
open Trades (SubType DateTime Error Direction ResolvedItem)
open Market (WFSubType Order asU32 UpdateOrderParams)

variable (parseFromRfc3339 : String → Except String DateTime)

/-! ### Validation -/

/-- `TradableItemModule::get_by`. -/
def getBy (cache : String → Option CacheItem) (itemId : String) : Except Stop CacheItem :=
  match cache itemId with
  | some item => .ok item
  | none => failed "Cache:TradableItem:GetBy" ("Tradable item not found for id '" ++ itemId ++ "'")

/-- The unique name of the item's variant; none if the sub-type names a variant it does not have. -/
def uniqueName (item : CacheItem) (subType : Option SubType) : Option String :=
  match subType with
  | some s =>
      if item.variantToUniqueName.isEmpty then some item.uniqueName
      else item.variantToUniqueName.lookup (s.variant.getD "")
  | none => some item.uniqueName

def CreateItem.filled (create : CreateItem) (item : CacheItem) (itemUniqueName : String) : CreateItem :=
  { create with
    wfmId := item.wfmId, wfmUrl := item.wfmUrl, itemName := item.name, itemUniqueName, tags := item.tags
    credits := wrapI64 (item.tradeTax * create.quantity), isValidated := true }

/-- The message ends in the debug form of the sub-type, left out here. -/
def CreateItem.asStock (create : CreateStockItem) (cache : String → Option CacheItem) :
    Except Stop CreateStockItem := do
  let item ← getBy cache create.raw
  match uniqueName item create.subType with
  | some name => return create.filled item name
  | none => failed "CreateStockItemExt:SubTypeVariant" "No unique name found for sub_type: "

/-- The wish list knows no variants. -/
def CreateItem.asWish (create : CreateWishListItem) (cache : String → Option CacheItem) :
    Except Stop CreateWishListItem := do
  let item ← getBy cache create.raw
  return create.filled item item.uniqueName

/-- `CreateStockItem::validate`. -/
def CreateItem.validateStock (create : CreateStockItem) : Handler CreateStockItem := do
  let cache ← call .cacheClient fromPoison
  ofExcept (create.asStock cache)

/-- `CreateWishListItem::validate`. -/
def CreateItem.validateWishList (create : CreateWishListItem) : Handler CreateWishListItem := do
  let cache ← call .cacheClient fromPoison
  ofExcept (create.asWish cache)

/-! ### The market order -/

inductive WfmStatus where
  | skippedBuyWfmReportDisabled
  | noOrder
  | closed
  | deleted
  | updated
  deriving DecidableEq, Repr

def WfmStatus.asStr : WfmStatus → String
  | .skippedBuyWfmReportDisabled => "SkippedBuyWfmReportDisabled"
  | .noOrder => "NoOrder"
  | .closed => "Closed"
  | .deleted => "Deleted"
  | .updated => "Updated"

/-- A market request, the status it leads to and how its error is worded. -/
structure OrderRequest where
  op : Op
  status : WfmStatus
  stage : String
  message : String

/-- What is done about the order of a traded item. -/
def orderRequest (reportingEnabled delete : Bool) (order : Order) (quantity : Int) : OrderRequest :=
  let newQuantity := asU32 (max (wrapI64 ((order.quantity : Int) - quantity)) 0)
  if reportingEnabled && !delete then
    ⟨.closeOrder order.id (asU32 quantity), .closed, "Close", "Failed to close WFM order"⟩
  else if delete || newQuantity = 0 then
    ⟨.deleteOrder order.id, .deleted, "Delete", "Failed to delete WFM order"⟩
  else
    ⟨.updateOrder order.id (.withQuantity .default newQuantity), .updated, "Update",
      "Failed to update WFM order"⟩

def OrderRequest.send (request : OrderRequest) : Handler WfmStatus := do
  let _ ← call request.op (fromWfm ("HandleWFMItem:" ++ request.stage) request.message)
  return request.status

/-- `report_to_wfm` off keeps buys away from the market, unless the sync is forced. -/
def skipsBuy (app : App) (orderType : OrderType) (operations : OperationSet) : Bool :=
  orderType = .buy && !app.reportToWfm && !OperationSet.has operations "ForceOrderSync"

def handleWfmItem (wfmId : String) (subType : Option SubType) (quantity : Int) (orderType : OrderType)
    (operations : OperationSet) : Handler WfmStatus := do
  let app ← call .appState fromPoison
  let delete := OperationSet.has operations "ShouldDelete"
  if skipsBuy app orderType operations then
    return .skippedBuyWfmReportDisabled
  else
    match app.cacheOrders.findOrder wfmId (.fromEntity subType) orderType with
    | none => return .noOrder
    | some order => (orderRequest app.reportToWfm delete order quantity).send

/-! ### The transaction -/

/-- `TradeItemType::Platinum.to_tax()`. -/
def platinumTax : Int := 500

/-- Profit against the latest purchase, and the credits. -/
def saleFigures (purchase : Option Transaction) (tx : Transaction) : Except Stop Transaction := do
  let tx ← match purchase with
    | none => pure tx
    | some purchase => do
        let purchasePricePerUnit ← divI64 purchase.price purchase.quantity
        let soldPricePerUnit ← divI64 tx.price tx.quantity
        let totalProfit := wrapI64 (wrapI64 (soldPricePerUnit - purchasePricePerUnit) * tx.quantity)
        pure { tx with profit := some totalProfit }
  return { tx with credits := wrapI64 (tx.price * platinumTax) }

/-- The date of the `SetDate` flag; the second value is `use_current_date`. -/
def setDate (flags : OperationSet) (tx : Transaction) : Except Stop (Transaction × Bool) :=
  match OperationSet.getValueAfter flags "SetDate" with
  | none => .ok (tx, true)
  | some date =>
      match parseFromRfc3339 date with
      | .ok at_ => .ok ({ tx with createdAt := at_ }, false)
      | .error e => failed "HandleTransaction:ParseDate" ("Failed to parse date: " ++ e)

/-- The purchases a sale is compared with. -/
def purchasesOf (tx : Transaction) : TransactionFilter := ⟨.purchase, tx.wfmId, tx.subType⟩

/-- A sale looks for the latest purchase of its item. -/
def withFigures (transaction : Transaction) : Handler Transaction :=
  if transaction.transactionType = .sale then do
    let existing ← TransactionQuery.getAll (purchasesOf transaction) 1 1
    ofExcept (saleFigures existing.head? transaction)
  else pure transaction

def handleTransaction (transaction : Transaction) (flags : OperationSet) : Handler Transaction := do
  let transaction ← withFigures transaction
  let (transaction, useCurrentDate) ← ofExcept (setDate parseFromRfc3339 flags transaction)
  TransactionMutation.create transaction useCurrentDate

/-! ### The handlers -/

def shouldRunWfm (flags operations : OperationSet) : Bool :=
  match OperationSet.getValueAfter flags "SkipWFMCheck" with
  | some value => !OperationSet.has operations value
  | none => true

/-- A sale is booked as such whatever `to_transaction` made of the price. -/
def asSale (orderType : OrderType) (tx : Transaction) : Transaction :=
  if orderType = .sell then { tx with transactionType := .sale } else tx

/-- `to_transaction(..).map_err(..)?`. -/
def liftTransaction (component : String) : Except String Transaction → Except Stop Transaction
  | .ok tx => .ok tx
  | .error e => failed component ("Failed to create transaction: " ++ e)

/-- The stock mutation of `handle_item_by_entity`, with the operation it adds. -/
def mutateStock (item : CreateStockItem) (orderType : OrderType) : Handler (OperationSet × StockItem) :=
  match orderType with
  | .sell => do
      let (change, updatedItem) ←
        StockItemMutation.soldByUrlAndSubType item.wfmUrl item.subType item.quantity
      return (["ItemSell_" ++ change.asStr], updatedItem.getD (.new item))
  | .buy => do
      let (change, createdItem) ← StockItemMutation.addItem (.new item)
      return (["ItemBuy_" ++ change.asStr], createdItem)

def syncStock (item : CreateStockItem) (orderType : OrderType) (flags operations : OperationSet) :
    Handler OperationSet := do
  if shouldRunWfm flags operations then
    let status ← handleWfmItem item.wfmId item.subType item.quantity orderType []
    return OperationSet.add operations ("WFMItem_" ++ status.asStr)
  else
    return OperationSet.add operations "SkippedWFMCheck"

/-- The market order and the transaction, once the stock is changed. -/
def settleStock (item : CreateStockItem) (userName : String) (orderType : OrderType)
    (flags operations : OperationSet) : Handler OperationSet := do
  let operations ← syncStock item orderType flags operations
  if item.price ≤ 0 then
    return OperationSet.add operations "PriceZeroNoTransaction"
  else
    let tx ← ofExcept
      (liftTransaction "{component}:ToTransaction" (item.stockTransaction userName))
    let _ ← handleTransaction parseFromRfc3339 (asSale orderType tx) flags
    return operations

def handleItemByEntity (item : CreateStockItem) (userName : String) (orderType : OrderType)
    (flags : OperationSet) : Handler (OperationSet × StockItem) := do
  let item ← item.validateStock
  let (operations, model) ← mutateStock item orderType
  let operations ← settleStock parseFromRfc3339 item userName orderType flags operations
  return (operations, model)

def handleItem (wfmUrl : String) (subType : Option SubType) (quantity price : Int) (userName : String)
    (orderType : OrderType) (flags : OperationSet) : Handler (OperationSet × StockItem) :=
  handleItemByEntity parseFromRfc3339 ((CreateItem.new wfmUrl subType quantity).setBought price)
    userName orderType flags

/-- The wish-list mutation of `handle_wish_list_by_entity`, with the operation it adds. -/
def mutateWishList (item : CreateWishListItem) (orderType : OrderType) :
    Handler (OperationSet × WishListItem) :=
  match orderType with
  | .buy => do
      let (change, updatedItem) ←
        WishListMutation.boughtByUrlAndSubType item.wfmUrl item.subType item.quantity
      return (["WishListItemBought_" ++ change.asStr], updatedItem.getD (.new item))
  | .sell => do
      let (change, createdItem) ← WishListMutation.addItem (.new item)
      return (["WishListItemSold_" ++ change.asStr], createdItem)

/-- The first `ReturnOn:` flag names how the last operation has to end for the handler to stop. -/
def returnsEarly (flags operations : OperationSet) : Bool :=
  match flags.findSome? fun flag => LogParser.stripPrefix "ReturnOn:".toList flag.toList with
  | some suffix => OperationSet.endsWith operations (String.ofList suffix)
  | none => false

def syncWfm (item : CreateWishListItem) (orderType : OrderType) (operations : OperationSet) :
    Handler OperationSet := do
  let status ← handleWfmItem item.wfmId item.subType item.quantity orderType ["ForceOrderSync"]
  return OperationSet.add operations ("WFMItem_" ++ status.asStr)

/-- What follows the wish-list mutation. -/
def settleWishList (item : CreateWishListItem) (userName : String) (orderType : OrderType)
    (flags operations : OperationSet) : Handler OperationSet := do
  if returnsEarly flags operations then
    return OperationSet.add operations "EarlyReturnFlagTriggered"
  else
    let operations ← syncWfm item orderType operations
    if item.price ≤ 0 then
      return OperationSet.add operations "PriceZeroNoTransaction"
    else
      let tx ← ofExcept
        (liftTransaction "HandleWishListItem:ToTransaction" (item.wishListTransaction userName))
      let _ ← handleTransaction parseFromRfc3339 (asSale orderType tx) flags
      return operations

def handleWishListByEntity (item : CreateWishListItem) (userName : String) (orderType : OrderType)
    (flags : OperationSet) : Handler (OperationSet × WishListItem) := do
  let item ← item.validateWishList
  let (operations, model) ← mutateWishList item orderType
  let operations ← settleWishList parseFromRfc3339 item userName orderType flags operations
  return (operations, model)

def handleWishList (wfmUrl : String) (subType : Option SubType) (quantity price : Int)
    (userName : String) (orderType : OrderType) (flags : OperationSet) :
    Handler (OperationSet × WishListItem) :=
  handleWishListByEntity parseFromRfc3339 ((CreateItem.new wfmUrl subType quantity).setBought price)
    userName orderType flags

/-! ### Applying one item of a trade -/

/-- What `handle_wish_list` reports when no wish-list row matched a purchase. -/
def wishListNotFound : String := "WishListItemBought_NotFound"

/-- A purchase asks the wish list first and stops there when nothing matches. -/
def wishListFlags (detectedAt : String) : OperationSet :=
  OperationSet.ofList ["ReturnOn:NotFound", "SetDate:" ++ detectedAt]

/-- A sale skips the market when no stock row matched; a purchase only sets the date. -/
def itemFlags (direction : Direction) (detectedAt : String) : OperationSet :=
  match direction with
  | .sale => OperationSet.ofList ["SkipWFMCheck:ItemSell_NotFound", "SetDate:" ++ detectedAt]
  | .purchase => OperationSet.ofList ["SetDate:" ++ detectedAt]

/-- `item.price` is the platinum for the whole line. -/
def applyItem (direction : Direction) (item : ResolvedItem) (player detectedAt : String) :
    Handler Unit :=
  match direction with
  | .purchase => do
      let (operations, _) ← handleWishList parseFromRfc3339 item.slug item.subType item.quantity
        item.price player .buy (wishListFlags detectedAt)
      if OperationSet.has operations wishListNotFound then
        let _ ← handleItem parseFromRfc3339 item.slug item.subType item.quantity item.price player .buy
          (itemFlags direction detectedAt)
        return ()
      else
        return ()
  | .sale => do
      let _ ← handleItem parseFromRfc3339 item.slug item.subType item.quantity item.price player .sell
        (itemFlags direction detectedAt)
      return ()

end Quantframe.Handlers
