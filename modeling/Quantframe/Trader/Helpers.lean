import Quantframe.Trader.Orders

/-!
# Helpers of the item trader

The knapsack, the lookup of an entry's order, and the one place where buying, selling and the wish-list
write.
-/

namespace Quantframe.Trader

open Lib Lib.Effect Market
open Handlers (OperationSet)
open Trades (Error SubType)

/-! ### The knapsack -/

/-- A weight, a value, the item and the order. -/
structure Weighed (F : Type) where
  weight : Int
  value : F
  wfmId : String
  id : String
  deriving DecidableEq, Repr

section Knapsack

variable {F : Type} (num : PriceFloats F)

/-- Where the item makes the best value of a capacity larger. The loop runs from the top down, so it
reads the values before the item. -/
def choices (dp : List F) (weight : Nat) (value : F) : List Bool :=
  (List.range dp.length).map fun w =>
    decide (weight ≤ w) &&
      num.lt (dp.getD w (num.ofInt 0)) (num.add (dp.getD (w - weight) (num.ofInt 0)) value)

def improve (dp : List F) (weight : Nat) (value : F) : List F :=
  (choices num dp weight value).mapIdx fun w chosen =>
    if chosen then num.add (dp.getD (w - weight) (num.ofInt 0)) value else dp.getD w (num.ofInt 0)

def Weighed.capacity (item : Weighed F) : Nat := item.weight.toNat

/-- The rows of `choice`. -/
def choiceRows (dp : List F) : List (Weighed F) → List (List Bool)
  | [] => []
  | item :: items =>
      choices num dp item.capacity item.value :: choiceRows (improve num dp item.capacity item.value) items

/-- One step back through the items: those taken, those left, and the capacity that remains. -/
def takeBack (entry : Weighed F × List Bool) (acc : List (Weighed F) × List (Weighed F) × Nat) :
    List (Weighed F) × List (Weighed F) × Nat :=
  let (selected, unselected, w) := acc
  if entry.1.capacity ≤ w ∧ entry.2.getD w false = true then
    (entry.1 :: selected, unselected, w - entry.1.capacity)
  else (selected, entry.1 :: unselected, w)

def knapsack (items : List (Weighed F)) (maxWeight : Int) : List (Weighed F) × List (Weighed F) :=
  let wMax := maxWeight.toNat
  let rows := choiceRows num (List.replicate (wMax + 1) (num.ofInt 0)) items
  let (selected, unselected, _) := (items.zip rows).foldr takeBack ([], [], wMax)
  (selected, unselected)

/-- `get_property_value::<i32>`. What does not fit cannot be read, and counts as 0. -/
def propertyI32 (value : Option Int) : Int :=
  (value.filter fun v => decide (-2147483648 ≤ v ∧ v ≤ 2147483647)).getD 0

/-- `extract_order_summary`. Its literal default makes the profit an `i32`. -/
def extractOrderSummary (list : OrderList) (orderType : OrderType) : List (Weighed F) :=
  (list.side orderType).map fun o =>
    ⟨o.platinum, num.ofInt (propertyI32 o.properties.potentialProfit), o.itemId, o.id⟩

end Knapsack

/-! ### Lookups -/

/-- What `get_order_info` returns. -/
structure OrderInfo where
  orderId : String
  price : Int
  properties : Properties
  operations : OperationSet

def OrderInfo.of : Option Order → OrderInfo
  | none => ⟨"", 0, .default, ["Create"]⟩
  | some order => ⟨order.id, order.platinum, { order.properties with id := some order.id }, ["Update"]⟩

section Lookups

variable {E : Type}

def getOrderInfo (entry : ItemEntry) (orderType : OrderType) (route : Route) : TraderM E OrderInfo := do
  let orders ← read World.orders
  let subType := WFSubType.fromEntity entry.subType
  let found := orders.findOrder entry.wfmId subType orderType route
  change fun w => { w with trace := w.trace ++ [.lookup entry.wfmId subType orderType route found orders] }
  pure (.of found)

end Lookups

def OperationSet.merge (operations other : OperationSet) : OperationSet := other.foldl OperationSet.add operations

/-- The keys that a later write or the knapsack reads back. -/
def populateOrderProperties (properties : Properties) (entry : ItemEntry) (tradeOperations : OperationSet) :
    Properties :=
  { properties with operations := some (OperationSet.merge entry.operations tradeOperations) }

def setOrderMarketMetrics (properties : Properties) (profit : Int) : Properties :=
  { properties with potentialProfit := some profit }

/-! ### Which orders go -/

def ordersToDelete (settings : Settings) (justStarted : Bool) (myOrders : OrderList) : List String :=
  if settings.autoDelete && justStarted then
    (myOrders.toVec.filter fun order =>
      let mode := match order.orderType with
        | .buy => TradeMode.buy
        | .sell => .sell
      !settings.general.isItemBlacklisted order.itemId order.subtype.toEntity mode).map Order.id
  else
    match settings.hasTradeMode .buy, settings.hasTradeMode .sell, settings.hasTradeMode .wishList with
    | true, false, true => myOrders.orderIds .sell
    | false, true, false => myOrders.orderIds .buy
    | _, _, _ => []

/-- How long a buy order must stay uncovered before the sweep deletes it. -/
def orphanGrace : Int := 1800000000000

/-- A cycle that was cut short, or that had no buy candidate at all, does not sweep. -/
def shouldSweep (interrupted : Bool) (entries : List ItemEntry) : Bool :=
  !interrupted && entries.any fun e => OperationSet.has e.operations "Buy"

/-- Ids of cached buy orders that no `Buy` or `WishList` entry of this cycle covers. -/
def orphanBuyOrders (settings : Settings) (entries : List ItemEntry) (myOrders : OrderList) : List String :=
  if settings.hasTradeMode .buy then
    let covered := (entries.filter fun e =>
      OperationSet.has e.operations "Buy" || OperationSet.has e.operations "WishList").map fun e =>
        (e.wfmId, keyOf e.subType)
    (myOrders.buyOrders.filter fun o =>
      let subType := o.subtype.toEntity
      !covered.contains (o.itemId, keyOf subType) &&
        !settings.general.isItemBlacklisted o.itemId subType .buy &&
        !settings.general.isItemBlacklisted o.itemId subType .wishList).map Order.id
  else []

def firstSeenAt (firstSeen : List (String × Int)) (id : String) : Option Int :=
  (firstSeen.find? fun e => e.1 = id).map Prod.snd

/-- Forgets the ids that are orphans no more, and dates the new ones. -/
def seeOrphans (firstSeen : List (String × Int)) (orphans : List String) (now : Int) : List (String × Int) :=
  let kept := firstSeen.filter fun e => orphans.contains e.1
  kept ++ (orphans.filter fun id => (firstSeenAt kept id).isNone).map fun id => (id, now)

def dueOrphans (firstSeen : List (String × Int)) (orphans : List String) (now grace : Int) : List String :=
  orphans.filter fun id => decide (grace ≤ now - (firstSeenAt (seeOrphans firstSeen orphans now) id).getD now)

/-! ### Prices -/

def shouldApplyMaxPriceDrop (maxPriceDrop minListingsBelow currentOrderPrice postPrice : Int)
    (prices : List Int) (orderType : OrderType) : Option String :=
  if isDisabled maxPriceDrop && isDisabled minListingsBelow then none
  else
    let (isPriceInvalid, priceChange, listingCount) := match orderType with
      | .buy => (decide (postPrice < currentOrderPrice), postPrice - currentOrderPrice,
          ((prices.countP fun p => decide (currentOrderPrice < p) : Nat) : Int))
      | .sell => (decide (currentOrderPrice < postPrice), currentOrderPrice - postPrice,
          ((prices.countP fun p => decide (p < currentOrderPrice) : Nat) : Int))
    let shouldSkip := !isDisabled maxPriceDrop && decide (maxPriceDrop < priceChange) &&
      (isDisabled minListingsBelow || decide (listingCount ≤ minListingsBelow))
    if isPriceInvalid then none else if shouldSkip then some "MaxPriceDrop" else none

def getPerTrade (itemInfo : CacheTradableItem) : Option Int := if itemInfo.bulkTradable then some 1 else none

def isBlacklisted (settings : Settings) (itemInfo : CacheTradableItem) (entry : ItemEntry) (mode : TradeMode) :
    Bool :=
  settings.general.isItemBlacklisted itemInfo.wfmId entry.subType mode

/-- A `PATCH` with these values would change nothing; an invisible order always needs one. -/
def orderUnchanged (o : Order) (price qty : Nat) (perTrade : Option Nat) : Bool :=
  o.visible && decide (o.platinum = price) && decide (o.quantity = qty) &&
    (perTrade.isNone || decide (o.perTrade = perTrade))

/-! ### The write of an entry -/

section Progress

variable {E : Type} (out : OrdersOutside E)

/-- The buy order a live sell create blocked at the order limit deletes to take its slot. -/
def sellSlotVictim (orders : TradeOrders) (route : Route) (orderType : OrderType)
    (wishList : List (String × String)) : Option Order :=
  if route = .live ∧ orderType = .sell then orders.lowestProfitBuyOrder wishList else none

/-- A failed delete of the victim leaves the sale blocked instead of ending the cycle. -/
def freeSlot (entry : ItemEntry) (route : Route) (orderType : OrderType) (slots : Slots) : TraderM E Bool := do
  let orders ← read World.orders
  let victim := sellSlotVictim orders route orderType slots.wishList
  change fun w => { w with trace := w.trace ++ [.blocked entry orderType route slots.wishList victim] }
  match victim with
  | none => pure false
  | some victim =>
      match ← attempt (delete out victim.id) with
      | .ok _ => pure true
      | .error _ => pure false

def createParams (entry : ItemEntry) (orderType : OrderType) (postPrice : Nat) (perTrade : Option Int)
    (properties : Properties) : CreateOrderParams where
  itemId := entry.wfmId
  orderType := orderType
  platinum := postPrice
  quantity := asU32 (entry.getQuantity orderType)
  visible := true
  perTrade := perTrade.map asU32
  subtype := some (.fromEntity entry.subType)
  properties := some properties

def updateParams (entry : ItemEntry) (orderType : OrderType) (postPrice : Nat) (perTrade : Option Int)
    (properties : Properties) : UpdateOrderParams where
  platinum := some postPrice
  quantity := some (asU32 (entry.getQuantity orderType))
  perTrade := perTrade.map asU32
  rank := none
  visible := none
  properties := some properties

/-- The write that the operations ask for. -/
def writeOrder (entry : ItemEntry) (route : Route) (orderType : OrderType) (postPrice : Nat)
    (perTrade : Option Int) (properties : Properties) (tradeOperations : OperationSet) (canCreateOrder : Bool) :
    TraderM E Unit :=
  let orderId := properties.id.getD ""
  let has := OperationSet.has tradeOperations
  if has "Create" && !has "Delete" && canCreateOrder then do
    let _ ← create out (createParams entry orderType postPrice perTrade properties) route
  else if has "Update" && !has "Delete" then do
    let params := updateParams entry orderType postPrice perTrade properties
    let orders ← read World.orders
    if (orders.cacheOrders.getById orderId).any fun o =>
        orderUnchanged o postPrice (asU32 (entry.getQuantity orderType)) params.perTrade then
      updateLocal orderId params
    else
      let _ ← update out orderId params
  else if has "Update" && has "Delete" then do
    let _ ← delete out orderId
  else pure ()

def progressOrder (entry : ItemEntry) (route : Route) (orderType : OrderType) (postPrice : Nat)
    (perTrade : Option Int) (properties : Properties) (tradeOperations : OperationSet) (slots : Slots) :
    TraderM E Unit := do
  let orders ← read World.orders
  let free := match orderType with
    | .buy => orders.canCreateBuy (slots.sellBacklog + sellSlotMargin) route
    | .sell => orders.canCreateOrder route
  let has := OperationSet.has tradeOperations
  let blocked := has "Create" && !has "Delete" && !free
  let freed ← if blocked then freeSlot out entry route orderType slots else pure false
  writeOrder out entry route orderType postPrice perTrade properties tradeOperations (free || freed)

/-- Deletes this item's existing order, if there is one. -/
def deleteOrder (entry : ItemEntry) (orderType : OrderType) (route : Route) (reason : String) :
    TraderM E Unit := do
  let info ← getOrderInfo entry orderType route
  if info.orderId = "" then pure ()
  else progressOrder out entry route orderType 1 none info.properties (.ofList ["Update", "Delete", reason]) {}

end Progress

end Quantframe.Trader
