import Mathlib.Data.List.Sort
import Quantframe.Trades.Types

/-!
# Market orders and the list that caches them

Prices and quantities are `u32`: arithmetic on them is modulo `2 ^ 32`.
-/

namespace Quantframe

inductive OrderType where
  | sell
  | buy
  deriving DecidableEq, Repr

namespace Market

/-- The market's own sub-type record. -/
structure WFSubType where
  subtype : Option String
  rank : Option Int
  charges : Option Int
  amberStars : Option Int
  cyanStars : Option Int
  deriving DecidableEq, Repr

def WFSubType.default : WFSubType := ⟨none, none, none, none, none⟩

/-- `SubTypeExt::to_entity`. -/
def WFSubType.toEntity (s : WFSubType) : Option Trades.SubType :=
  if s = .default then none
  else some
    { rank := s.rank, charges := s.charges, variant := s.subtype, amberStars := s.amberStars, cyanStars := s.cyanStars }

/-- `SubTypeExt::from_entity`. -/
def WFSubType.fromEntity (entity : Option Trades.SubType) : WFSubType :=
  match entity with
  | none => .default
  | some s => ⟨s.variant, s.rank, s.charges, s.amberStars, s.cyanStars⟩

/-- The keys of an order's property object that the program reads. -/
structure Properties where
  id : Option String
  potentialProfit : Option Int
  operations : Option (List String)
  deriving DecidableEq, Repr

def Properties.default : Properties := ⟨none, none, none⟩

structure Order where
  id : String
  orderType : OrderType
  platinum : Nat
  quantity : Nat
  perTrade : Option Nat
  subtype : WFSubType
  visible : Bool
  itemId : String
  properties : Properties
  deriving DecidableEq, Repr

/-- A `PATCH`; an absent field is left as it is. -/
structure UpdateOrderParams where
  platinum : Option Nat
  quantity : Option Nat
  perTrade : Option Nat
  rank : Option Nat
  visible : Option Bool
  properties : Option Properties
  deriving DecidableEq, Repr

def UpdateOrderParams.default : UpdateOrderParams := ⟨none, none, none, none, none, none⟩

/-- The body of a `POST`. -/
structure CreateOrderParams where
  itemId : String
  orderType : OrderType
  platinum : Nat
  quantity : Nat
  visible : Bool
  perTrade : Option Nat
  subtype : Option WFSubType
  properties : Option Properties
  deriving DecidableEq, Repr

def UpdateOrderParams.withQuantity (args : UpdateOrderParams) (quantity : Nat) : UpdateOrderParams :=
  { args with quantity := some quantity }

/-- `i64 as u32`. -/
def asU32 (n : Int) : Nat := (n % 4294967296).toNat

/-- `u32` subtraction, which wraps in a release build. -/
def subU32 (a b : Nat) : Nat := (a + 4294967296 - b) % 4294967296

def Order.update (order : Order) (args : UpdateOrderParams) : Order :=
  { order with
    platinum := args.platinum.getD order.platinum
    quantity := args.quantity.getD order.quantity
    perTrade := (args.perTrade.map (· % 256)).or order.perTrade
    subtype := { order.subtype with rank := (args.rank.map fun r => (r : Int)).or order.subtype.rank }
    visible := args.visible.getD order.visible
    properties := args.properties.getD order.properties }

structure OrderList where
  sellOrders : List Order
  buyOrders : List Order
  deriving DecidableEq, Repr

namespace OrderList

/-- Buy orders from the dearest, sell orders from the cheapest on. -/
def new (orders : List Order) : OrderList where
  buyOrders := (orders.filter fun o => o.orderType = .buy).insertionSort fun a b => b.platinum ≤ a.platinum
  sellOrders := (orders.filter fun o => o.orderType = .sell).insertionSort fun a b => a.platinum ≤ b.platinum

def toVec (list : OrderList) : List Order := list.sellOrders ++ list.buyOrders

def totalOrders (list : OrderList) : Nat := list.sellOrders.length + list.buyOrders.length

def add (list : OrderList) (order : Order) : OrderList :=
  match order.orderType with
  | .sell => { list with sellOrders := list.sellOrders ++ [order] }
  | .buy => { list with buyOrders := list.buyOrders ++ [order] }

def side (list : OrderList) : OrderType → List Order
  | .sell => list.sellOrders
  | .buy => list.buyOrders

def findOrder (list : OrderList) (wfmId : String) (subType : WFSubType) (orderType : OrderType) :
    Option Order :=
  (list.side orderType).find? fun o => o.itemId = wfmId ∧ o.subtype = subType

def orderIds (list : OrderList) (orderType : OrderType) : List String :=
  (list.side orderType).map Order.id

def getById (list : OrderList) (orderId : String) : Option Order :=
  list.toVec.find? fun o => o.id = orderId

def removeById (list : OrderList) (id : String) : OrderList where
  sellOrders := list.sellOrders.filter fun o => o.id ≠ id
  buyOrders := list.buyOrders.filter fun o => o.id ≠ id

/-- Changes the first order of a list with the id. -/
def updateFirst (orders : List Order) (id : String) (args : UpdateOrderParams) : List Order :=
  orders.modify (orders.findIdx fun o => o.id = id) fun o => o.update args

/-- Looks among the buy orders first; an unknown id changes nothing. -/
def update (list : OrderList) (orderId : String) (args : UpdateOrderParams) : OrderList :=
  if list.buyOrders.any fun o => o.id = orderId then
    { list with buyOrders := updateFirst list.buyOrders orderId args }
  else { list with sellOrders := updateFirst list.sellOrders orderId args }

def closeOrder (list : OrderList) (orderId : String) (quantity : Nat) : OrderList :=
  match (list.buyOrders ++ list.sellOrders).find? fun o => o.id = orderId with
  | none => list
  | some order =>
      let newQuantity := subU32 order.quantity quantity
      if newQuantity ≤ 0 then list.removeById orderId
      else list.update orderId (.withQuantity .default newQuantity)

end OrderList

end Market

end Quantframe
