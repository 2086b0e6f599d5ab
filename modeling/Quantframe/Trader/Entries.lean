import Quantframe.Handlers.Records
import Quantframe.Market.Orders

/-!
# Entries, prices and settings of a trader cycle

Prices are `f64`: the operations that the trader uses are a parameter.
-/

namespace Quantframe.Trader

open Market
open Handlers (OperationSet StockStatus PriceHistory Json)
open Trades (SubType)

structure PriceFloats (F : Type) where
  ofInt : Int → F
  add : F → F → F
  lt : F → F → Bool
  /-- `as i64`. -/
  asI64 : F → Int

structure ItemPriceInfo (F : Type) where
  movingAvg : Option F
  avgPrice : F
  warm : Bool
  guarded : Bool

def ItemPriceInfo.default {F : Type} (num : PriceFloats F) : ItemPriceInfo F := ⟨none, num.ofInt 0, false, false⟩

def isDisabled (value : Int) : Bool := decide (value ≤ -1)

/-! ### Settings -/

inductive TradeMode where
  | buy
  | sell
  | wishList
  | syndicate
  | unknown (name : String)
  deriving DecidableEq, Repr

structure BlackListItemSetting where
  wfmId : String
  subType : Option SubType
  disabledFor : List TradeMode

/-- A setting without a sub-type is for all of them. -/
def BlackListItemSetting.isDisabledFor (item : BlackListItemSetting) (wfmId : String)
    (subType : Option SubType) (mode : TradeMode) : Bool :=
  (decide (item.wfmId = wfmId) && item.subType.isNone && item.disabledFor.contains mode) ||
    (decide (item.wfmId = wfmId) && decide (item.subType = subType) && item.disabledFor.contains mode)

structure BuyListItemSetting where
  wfmId : String
  maxPrice : Int

structure ItemGeneralSettings where
  blacklist : List BlackListItemSetting := []
  buyList : List BuyListItemSetting := []

def ItemGeneralSettings.isItemBlacklisted (s : ItemGeneralSettings) (wfmId : String)
    (subType : Option SubType) (mode : TradeMode) : Bool :=
  s.blacklist.any fun item => item.isDisabledFor wfmId subType mode

def ItemGeneralSettings.getItemMaxPrice (s : ItemGeneralSettings) (wfmId : String) : Int :=
  ((s.buyList.find? fun item => item.wfmId = wfmId).map BuyListItemSetting.maxPrice).getD 0

structure ItemWtbSettings where
  profitThreshold : Int
  avgPriceCap : Int
  maxTotalPriceCap : Int
  maxStockQuantity : Int
  maxPriceDrop : Int
  minListingsBelow : Int

structure ItemWtsSettings where
  minSma : Int
  minProfit : Int
  maxPriceDrop : Int
  minListingsBelow : Int

structure Settings where
  autoDelete : Bool
  deleteConflictingOrders : Bool
  tradeModes : List TradeMode
  general : ItemGeneralSettings
  wtb : ItemWtbSettings
  wts : ItemWtsSettings

def Settings.hasTradeMode (s : Settings) (mode : TradeMode) : Bool := s.tradeModes.contains mode

/-! ### The order book of an item -/

inductive StatusType where
  | offline
  | online
  | inGame
  deriving DecidableEq, Repr

structure OrderWithUser where
  order : Order
  userName : String
  status : StatusType

structure LiveOrders where
  sellOrders : List OrderWithUser
  buyOrders : List OrderWithUser

namespace LiveOrders

def retain (b : LiveOrders) (keep : OrderWithUser → Bool) : LiveOrders where
  sellOrders := b.sellOrders.filter keep
  buyOrders := b.buyOrders.filter keep

def sortByPlatinum (b : LiveOrders) : LiveOrders where
  sellOrders := b.sellOrders.insertionSort fun x y => x.order.platinum ≤ y.order.platinum
  buyOrders := b.buyOrders.insertionSort fun x y => y.order.platinum ≤ x.order.platinum

def side (b : LiveOrders) : OrderType → List OrderWithUser
  | .sell => b.sellOrders
  | .buy => b.buyOrders

def getPriceList (b : LiveOrders) (orderType : OrderType) : List Int :=
  (b.side orderType).map fun o => (o.order.platinum : Int)

def lowestPrice (b : LiveOrders) (orderType : OrderType) : Int := (b.getPriceList orderType).min?.getD 0

def highestPrice (b : LiveOrders) (orderType : OrderType) : Int := (b.getPriceList orderType).max?.getD 0

/-- The spread, from the side it is asked for. -/
def priceRange (b : LiveOrders) (orderType : OrderType) : Int :=
  match orderType with
  | .sell => b.highestPrice .buy - b.lowestPrice .sell
  | .buy => b.lowestPrice .sell - b.highestPrice .buy

end LiveOrders

structure ItemMarketInfo where
  lowestPrice : Int := 0
  highestPrice : Int := 0
  priceRange : Int := 0
  volume : Nat := 0
  deriving DecidableEq, Repr

def ItemMarketInfo.new (b : LiveOrders) (orderType : OrderType) : ItemMarketInfo where
  lowestPrice := b.lowestPrice orderType
  highestPrice := b.highestPrice orderType
  priceRange := b.priceRange orderType
  volume := (b.getPriceList orderType).length

/-! ### Entries -/

structure ItemEntry where
  stockId : Option Int := none
  wishListId : Option Int := none
  wfmUrl : String
  wfmId : String
  subType : Option SubType := none
  priority : Int := 0
  buyQuantity : Int := 0
  sellQuantity : Int := 0
  operations : OperationSet
  buyMarketInfo : ItemMarketInfo := {}
  sellMarketInfo : ItemMarketInfo := {}
  deriving DecidableEq, Repr

namespace ItemEntry

def applyMarketInfo (entry : ItemEntry) (b : LiveOrders) : ItemEntry :=
  { entry with buyMarketInfo := .new b .buy, sellMarketInfo := .new b .sell }

def getQuantity (entry : ItemEntry) : OrderType → Int
  | .buy => entry.buyQuantity
  | .sell => entry.sellQuantity

end ItemEntry

structure CacheTradableItem where
  wfmId : String
  wfmUrl : String
  bulkTradable : Bool
  deriving DecidableEq, Repr

/-- The columns of a stock or wish-list row that a cycle writes, and whether it may and did. -/
structure Listing where
  listPrice : Option Int
  status : StockStatus
  isHidden : Bool
  locked : Bool := false
  isDirty : Bool := false
  deriving DecidableEq, Repr

namespace Listing

def setListPrice (l : Listing) (price : Option Int) : Listing :=
  if l.locked then l else { l with listPrice := price, isDirty := l.isDirty || decide (l.listPrice ≠ price) }

def setStatus (l : Listing) (status : StockStatus) : Listing :=
  if l.locked then l else { l with status := status, isDirty := l.isDirty || decide (l.status ≠ status) }

def lock (l : Listing) : Listing := { l with locked := true }

end Listing

structure StockItem where
  id : Int
  bought : Int
  owned : Int
  subType : Option SubType
  listing : Listing
  priceHistory : List PriceHistory
  properties : Option Json
  minPrice : Option Int
  minProfit : Option Int
  minSma : Option Int
  deriving DecidableEq, Repr

structure WishListItem where
  id : Int
  quantity : Int
  listing : Listing
  priceHistory : List PriceHistory
  properties : Option Json
  minPrice : Int
  maxPrice : Int
  deriving DecidableEq, Repr

/-- Everything one trader cycle reads. -/
structure TradeContext (F : Type) where
  settings : Settings
  prices : String → Option SubType → Option (ItemPriceInfo F)
  tradable : String → Option CacheTradableItem
  username : String
  banned : Bool

end Quantframe.Trader
