import Quantframe.Collector.Diff
import Quantframe.Lib.Effect
import Quantframe.Trader.Entries

/-!
# Order writes of the trader

A write goes to the market or to a simulated book. What the market, the database and the clock answer
is up to the outside.
-/

namespace Quantframe.Trader

open Lib Lib.Effect Market
open Handlers (OperationSet)
open Trades (Error SubType)

/-- Order slots a buy leaves free beyond the sell backlog of the cycle. -/
def sellSlotMargin : Nat := 5

structure Slots where
  sellBacklog : Nat := 0
  wishList : List (String × String) := []

inductive ForcedBy where
  | global
  | notWarm
  deriving DecidableEq, Repr

inductive Route where
  | live
  | dryRun (forcedBy : ForcedBy)
  deriving DecidableEq, Repr

def routeFor (globalDryRun warm : Bool) : Route :=
  if globalDryRun then .dryRun .global else if !warm then .dryRun .notWarm else .live

/-- The kinds of error that the client tells apart. -/
inductive ApiError where
  | orderLimitExceeded
  | orderLimitExceededSamePrice
  | notFound
  | unauthorized
  | other
  deriving DecidableEq, Repr

/-- The client's cached orders. -/
structure OrderRoute where
  orders : OrderList
  limit : Nat
  deriving DecidableEq, Repr

def OrderRoute.canCreateOrder (route : OrderRoute) : Bool := decide (route.orders.totalOrders < route.limit)

structure TradeOrders where
  live : Option OrderRoute
  globalDryRun : Bool
  book : OrderList
  failures : Nat
  deriving DecidableEq, Repr

/-- The collector's `sub_type` column of a sub-type. -/
def keyOf (subType : Option SubType) : String :=
  match subType with
  | none => ""
  | some s => Collector.subTypeKey s.rank s.charges s.variant s.amberStars s.cyanStars

def simulatedOrder (id : String) (params : CreateOrderParams) : Order where
  id := "dry-" ++ id
  orderType := params.orderType
  platinum := params.platinum
  quantity := params.quantity
  perTrade := params.perTrade.map fun p => min p 255
  subtype := params.subtype.getD .default
  visible := params.visible
  itemId := params.itemId
  properties := params.properties.getD .default

/-- The first order with the least profit, and among those the least price. -/
def leastProfit : List Order → Option Order
  | [] => none
  | o :: orders =>
      match leastProfit orders with
      | none => some o
      | some o' =>
          let profit := o.properties.potentialProfit.getD 0
          let profit' := o'.properties.potentialProfit.getD 0
          if profit' < profit ∨ (profit' = profit ∧ o'.platinum < o.platinum) then some o' else some o

namespace TradeOrders

/-- Under global dry-run the simulated book starts as a copy of the real cached orders. -/
def new (live : Option OrderRoute) (globalDryRun : Bool) : TradeOrders where
  live := live
  globalDryRun := globalDryRun
  book :=
    match live, globalDryRun with
    | some client, true => client.orders
    | _, _ => .new []
  failures := 0

/-- Every order the trader reasons about: the simulated book, and the real cached orders when not in
global dry-run. -/
def cacheOrders (o : TradeOrders) : OrderList :=
  match o.live, o.globalDryRun with
  | some client, false => .new (client.orders.toVec ++ o.book.toVec)
  | _, _ => o.book

/-- The orders that a route reads. -/
def store (o : TradeOrders) : Route → OrderList
  | .dryRun _ => o.book
  | .live => (o.live.map OrderRoute.orders).getD (.new [])

def findOrder (o : TradeOrders) (wfmId : String) (subType : WFSubType) (orderType : OrderType)
    (route : Route) : Option Order :=
  (o.store route).findOrder wfmId subType orderType

def canCreateOrder (o : TradeOrders) : Route → Bool
  | .dryRun _ => true
  | .live => o.live.any OrderRoute.canCreateOrder

/-- A buy leaves `reserve` slots under the limit for sales. -/
def canCreateBuy (o : TradeOrders) (reserve : Nat) : Route → Bool
  | .dryRun _ => true
  | .live => o.live.any fun client => decide (client.orders.totalOrders + reserve < client.limit)

/-- The real buy order a blocked sale may replace; wish-list bids are never replaced. -/
def lowestProfitBuyOrder (o : TradeOrders) (wishList : List (String × String)) : Option Order :=
  o.live.bind fun client => leastProfit <| client.orders.buyOrders.filter fun b =>
    !wishList.contains (b.itemId, keyOf b.subtype.toEntity) &&
      !OperationSet.has (b.properties.operations.getD []) "WishList"

def inBook (o : TradeOrders) (orderId : String) : Bool :=
  o.globalDryRun || (o.book.getById orderId).isSome

def bookForcedBy (o : TradeOrders) : ForcedBy := if o.globalDryRun then .global else .notWarm

/-- The client's cached orders, changed. -/
def mapLive (o : TradeOrders) (f : OrderList → OrderList) : TradeOrders :=
  { o with live := o.live.map fun client => { client with orders := f client.orders } }

end TradeOrders

/-! ### What a cycle does to the orders, step by step -/

inductive Action where
  | create (params : CreateOrderParams) (route : Route)
  | update (orderId : String) (params : UpdateOrderParams)
  | updateLocal (orderId : String) (params : UpdateOrderParams)
  | delete (orderId : String)
  | refresh

/-- A write: whether it was sent to the market, the warm flag of the entry in process, whether it
succeeded, and the orders after it. -/
structure Write where
  action : Action
  sent : Bool
  entry : Option Bool
  succeeded : Bool
  orders : TradeOrders

inductive Step where
  /-- A look for the order of a key, and the orders it was made on. -/
  | lookup (wfmId : String) (subType : WFSubType) (orderType : OrderType) (route : Route)
      (found : Option Order) (orders : TradeOrders)
  /-- The cycle turns to an entry. -/
  | turn (entry : ItemEntry)
  /-- A create that found no free slot, and the order that is to make room for it. -/
  | blocked (entry : ItemEntry) (orderType : OrderType) (route : Route) (wishList : List (String × String))
      (victim : Option Order)
  | write (w : Write)

/-- An orphan sweep: what it was made on, and the ids that it goes on to delete. -/
structure Sweep where
  settings : Settings
  entries : List ItemEntry
  orders : OrderList
  now : Int
  due : List String

/-- `processing`, `trace` and `sweeps` only tell what happens. -/
structure World (E : Type) where
  orders : TradeOrders
  orphanFirstSeen : List (String × Int)
  ext : E
  processing : Option Bool
  trace : List Step
  sweeps : List Sweep

abbrev TraderM (E α : Type) := Effect Error (World E) α

section Writes

variable {E α : Type}

/-- A question to the outside. -/
def ask (q : E → α × E) : TraderM E α := act fun w => ((q w.ext).1, { w with ext := (q w.ext).2 })

def record (action : Action) (sent succeeded : Bool) (orders : TradeOrders) : TraderM E Unit :=
  change fun w =>
    { w with orders := orders, trace := w.trace ++ [.write ⟨action, sent, w.processing, succeeded, orders⟩] }

/-- What the market and the machine answer to the writes. -/
structure OrdersOutside (E : Type) where
  create : CreateOrderParams → E → Except ApiError Order × E
  update : String → UpdateOrderParams → E → Except ApiError Order × E
  delete : String → E → Except ApiError Order × E
  myOrders : E → Except ApiError (List Order) × E
  uuid : E → String × E

variable (out : OrdersOutside E)

def refresh : TraderM E Unit := do
  let orders ← read World.orders
  if orders.live.isSome then
    match ← ask out.myOrders with
    | .ok mine => record .refresh false true (orders.mapLive fun _ => .new mine)
    | .error _ => pure ()
  else pure ()

def liveClient (action : Action) : TraderM E OrderRoute := do
  let orders ← read World.orders
  match orders.live with
  | some client => pure client
  | none =>
      record action false false { orders with failures := orders.failures + 1 }
      fail ⟨"Trader:Orders", "No live warframe.market client"⟩

def refreshesAfter : ApiError → Bool
  | .orderLimitExceededSamePrice | .notFound | .orderLimitExceeded => true
  | .unauthorized | .other => false

/-- `orders` are those the client has left. -/
def finishLive (action : Action) (name verb : String) (sent : Bool) (result : Except ApiError α)
    (orders : TradeOrders) : TraderM E α :=
  match result with
  | .ok value => do
      record action sent true { orders with failures := 0 }
      pure value
  | .error e => do
      record action sent false { orders with failures := orders.failures + 1 }
      if refreshesAfter e then refresh out else pure ()
      fail ⟨"WFMClient:Trader:Orders:" ++ name, "Failed to " ++ verb ++ " order"⟩

/-- The client refuses a create at its limit without sending it. -/
def createLive (params : CreateOrderParams) : TraderM E Order := do
  let client ← liveClient (.create params .live)
  let orders ← read World.orders
  if client.canCreateOrder then
    match ← ask (out.create params) with
    | .ok answered =>
        let order := { answered with properties := params.properties.getD .default }
        finishLive out (.create params .live) "Create" "create" true (.ok order)
          (orders.mapLive fun list => list.add order)
    | .error e => finishLive out (.create params .live) "Create" "create" true (.error e) orders
  else finishLive out (.create params .live) "Create" "create" false (.error .orderLimitExceeded) orders

def create (params : CreateOrderParams) (route : Route) : TraderM E Order :=
  match route with
  | .dryRun _ => do
      let order := simulatedOrder (← ask out.uuid) params
      let orders ← read World.orders
      record (.create params route) false true { orders with book := orders.book.add order }
      pure order
  | .live => createLive out params

def updateLive (orderId : String) (params : UpdateOrderParams) : TraderM E Order := do
  let _ ← liveClient (.update orderId params)
  let orders ← read World.orders
  match ← ask (out.update orderId params) with
  | .ok answered =>
      finishLive out (.update orderId params) "Update" "update" true
        (.ok { answered with properties := params.properties.getD .default })
        (orders.mapLive fun list => list.update orderId params)
  | .error e => finishLive out (.update orderId params) "Update" "update" true (.error e) orders

def update (orderId : String) (params : UpdateOrderParams) : TraderM E Order := do
  let orders ← read World.orders
  if orders.inBook orderId then
    let book := orders.book.update orderId params
    match book.getById orderId with
    | some order =>
        record (.update orderId params) false true { orders with book := book }
        pure order
    | none =>
        record (.update orderId params) false false { orders with book := book }
        fail ⟨"Trader:Orders:Update", s!"Simulated order {orderId} not found"⟩
  else updateLive out orderId params

/-- Applies an update to the cached order without sending anything. -/
def updateLocal (orderId : String) (params : UpdateOrderParams) : TraderM E Unit := do
  let orders ← read World.orders
  if orders.inBook orderId then
    record (.updateLocal orderId params) false true { orders with book := orders.book.update orderId params }
  else
    record (.updateLocal orderId params) false true (orders.mapLive fun list => list.update orderId params)

def deleteLive (orderId : String) : TraderM E Route := do
  let _ ← liveClient (.delete orderId)
  let orders ← read World.orders
  match ← ask (out.delete orderId) with
  | .ok deleted =>
      finishLive out (.delete orderId) "Delete" "delete" true (.ok .live)
        (orders.mapLive fun list => list.removeById deleted.id)
  | .error e => finishLive out (.delete orderId) "Delete" "delete" true (.error e) orders

/-- Deletes an order and reports whether it was a simulated or a real delete. -/
def delete (orderId : String) : TraderM E Route := do
  let orders ← read World.orders
  if orders.inBook orderId then
    record (.delete orderId) false true { orders with book := orders.book.removeById orderId }
    pure (.dryRun orders.bookForcedBy)
  else deleteLive out orderId

end Writes

end Quantframe.Trader
