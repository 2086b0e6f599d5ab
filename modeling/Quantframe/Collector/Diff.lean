import Mathlib.Data.List.Sort

/-!
# The order book of an item and its difference to the live set
-/

namespace Quantframe.Collector

structure V2OrderUser where
  id : String
  ingameName : String
  status : String
  deriving DecidableEq, Repr

/-- One order from `GET /v2/orders/item/{slug}`; `side` is `sell` or `buy`. -/
structure V2Order where
  id : String
  side : String
  platinum : Int
  quantity : Int
  rank : Option Int
  charges : Option Int
  subtype : Option String
  amberStars : Option Int
  cyanStars : Option Int
  visible : Bool
  itemId : String
  user : V2OrderUser
  deriving DecidableEq, Repr

/-- The `sub_type` column: `key=value` parts joined by `;`, empty without rank or variant fields. -/
def subTypeKey (rank charges : Option Int) (variant : Option String)
    (amberStars cyanStars : Option Int) : String :=
  let parts := [rank.map fun r => s!"rank={r}", charges.map fun c => s!"charges={c}",
    variant.map fun v => s!"subtype={v}", amberStars.map fun a => s!"amber={a}",
    cyanStars.map fun c => s!"cyan={c}"]
  ";".intercalate (parts.filterMap id)

namespace V2Order

def subTypeKey (o : V2Order) : String :=
  Collector.subTypeKey o.rank o.charges o.subtype o.amberStars o.cyanStars

def isIngame (o : V2Order) : Bool := o.user.status == "ingame"

end V2Order

/-- A row of `last_seen_orders`, without `item_id` (a sweep covers one item). -/
structure SeenOrder where
  orderId : String
  subType : String
  side : String
  platinum : Int
  quantity : Int
  userId : String
  firstSeen : String
  deriving DecidableEq, Repr

structure SweepSummary where
  subType : String
  minSell : Option Int
  maxBuy : Option Int
  sellCount : Nat
  buyCount : Nat
  sellIngame : Nat
  buyIngame : Nat
  topSells : List (Int × Int)
  topBuys : List (Int × Int)
  deriving DecidableEq, Repr

structure Changed where
  before : SeenOrder
  after : SeenOrder
  deriving DecidableEq, Repr

def Changed.quantityDrop (c : Changed) : Int := max (c.before.quantity - c.after.quantity) 0

structure OrderDiff where
  new : List SeenOrder
  changed : List Changed
  vanished : List SeenOrder
  deriving DecidableEq, Repr

def V2Order.toSeen (o : V2Order) (sweptAt : String) : SeenOrder where
  orderId := o.id
  subType := o.subTypeKey
  side := o.side
  platinum := o.platinum
  quantity := o.quantity
  userId := o.user.id
  firstSeen := sweptAt

/-- Visible orders as `last_seen_orders` rows. `first_seen` is the sweep time. -/
def toSeen (orders : List V2Order) (sweptAt : String) : List SeenOrder :=
  (orders.filter V2Order.visible).map fun o => o.toSeen sweptAt

def topOrders : Nat := 5

/-- The groups of `summarize`, in the order of their keys. -/
def groupKeys (orders : List V2Order) : List String :=
  (orders.map V2Order.subTypeKey).dedup.mergeSort fun a b => decide (a ≤ b)

def summarizeGroup (subType : String) (group : List V2Order) : SweepSummary :=
  let sells := group.filter fun o => o.side == "sell"
  let buys := group.filter fun o => o.side == "buy"
  let ingameSells := (sells.filter V2Order.isIngame).mergeSort fun a b => decide (a.platinum ≤ b.platinum)
  let ingameBuys := (buys.filter V2Order.isIngame).mergeSort fun a b => decide (b.platinum ≤ a.platinum)
  { subType := subType
    minSell := ingameSells.head?.map V2Order.platinum
    maxBuy := ingameBuys.head?.map V2Order.platinum
    sellCount := sells.length
    buyCount := buys.length
    sellIngame := ingameSells.length
    buyIngame := ingameBuys.length
    topSells := (ingameSells.take topOrders).map fun o => (o.platinum, o.quantity)
    topBuys := (ingameBuys.take topOrders).map fun o => (o.platinum, o.quantity) }

/-- One summary per sub-type. -/
def summarize (orders : List V2Order) : List SweepSummary :=
  let visible := orders.filter V2Order.visible
  (groupKeys visible).map fun key =>
    summarizeGroup key (visible.filter fun o => o.subTypeKey == key)

/-- The map of the previous orders by id: of two with one id the later one stays. -/
def before (previous : List SeenOrder) (id : String) : Option SeenOrder :=
  previous.reverse.find? fun o => o.orderId = id

def change (prev order : SeenOrder) : Option Changed :=
  if prev.platinum ≠ order.platinum ∨ prev.quantity ≠ order.quantity then
    some ⟨prev, { order with firstSeen := prev.firstSeen }⟩
  else none

/-- Compares the previous live set with this sweep. A price or quantity edit keeps the order id,
so it counts as a change, not a vanish. -/
def diffOrders (previous current : List SeenOrder) : OrderDiff where
  new := current.filter fun o => (before previous o.orderId).isNone
  changed := current.filterMap fun o => (before previous o.orderId).bind fun prev => change prev o
  vanished := previous.filter fun prev => prev.orderId ∉ current.map SeenOrder.orderId

theorem mem_toSeen {orders : List V2Order} {sweptAt : String} {row : SeenOrder} :
    row ∈ toSeen orders sweptAt ↔ ∃ o ∈ orders, o.visible = true ∧ o.toSeen sweptAt = row := by
  simp only [toSeen, List.mem_map, List.mem_filter, and_assoc]

theorem toSeen_distinct {orders : List V2Order} {sweptAt : String}
    (h : (orders.map V2Order.id).Nodup) : ((toSeen orders sweptAt).map SeenOrder.orderId).Nodup := by
  rw [toSeen, List.map_map]
  exact (List.filter_sublist.map V2Order.id).nodup h

theorem before_eq_none {previous : List SeenOrder} {id : String} :
    before previous id = none ↔ ∀ prev ∈ previous, prev.orderId ≠ id := by
  simp only [before, List.find?_eq_none, List.mem_reverse, decide_eq_true_eq, ne_eq]

theorem before_some {previous : List SeenOrder} {id : String} {prev : SeenOrder}
    (h : before previous id = some prev) : prev ∈ previous ∧ prev.orderId = id := by
  have hid := List.find?_some h
  exact ⟨List.mem_reverse.mp (List.mem_of_find?_eq_some h), of_decide_eq_true hid⟩

theorem change_eq_some {prev order : SeenOrder} {c : Changed} (h : change prev order = some c) :
    c.before = prev ∧ c.after = { order with firstSeen := prev.firstSeen } := by
  rw [change] at h
  split at h
  · cases h
    exact ⟨rfl, rfl⟩
  · cases h

theorem change_eq_none {prev order : SeenOrder} (h : change prev order = none) :
    prev.platinum = order.platinum ∧ prev.quantity = order.quantity := by
  rw [change] at h
  split at h
  · cases h
  · next hsame =>
      rw [not_or, not_ne_iff, not_ne_iff] at hsame
      exact hsame

end Quantframe.Collector
