import Quantframe.Trader.Helpers

/-!
# The item trader

One cycle: unwanted orders go, every entry is bought, wished for or sold, the buy orders are held under
the cap, and orphans are swept. Which entries a cycle has is up to the outside.
-/

namespace Quantframe.Trader

open Lib Lib.Effect Market
open Handlers (OperationSet)
open Trades (Error)

/-- What the machine, the database and the market answer to a cycle. -/
structure Outside (E : Type) extends OrdersOutside E where
  running : E → Bool × E
  justStarted : E → Bool × E
  now : E → Int × E
  interestingItems : E → Except Error (List ItemEntry) × E
  wishListKeys : E → Except Error (List (String × String)) × E
  liveOrders : String → E → Except Error LiveOrders × E
  stockItem : Int → E → Except Error (Option StockItem) × E
  wishListItem : Int → E → Except Error (Option WishListItem) × E
  updateStockItem : StockItem → E → Except Error Unit × E
  updateWishListItem : WishListItem → E → Except Error Unit × E

section Cycle

variable {E F α : Type}

/-- A question whose failure ends the cycle. -/
def demand (q : E → Except Error α × E) : TraderM E α := do
  match ← ask q with
  | .ok a => pure a
  | .error e => fail e

variable (num : PriceFloats F) (out : Outside E) (ctx : TradeContext F)

def getStockItem (entry : ItemEntry) : TraderM E (Option StockItem) :=
  match entry.stockId with
  | none => fail ⟨"ItemEntry:GetStockItem", "Stock ID is None"⟩
  | some id => demand (out.stockItem id)

def getWishListItem (entry : ItemEntry) : TraderM E (Option WishListItem) :=
  match entry.wishListId with
  | none => fail ⟨"ItemEntry:GetWishListItem", "Wish List ID is None"⟩
  | some id => demand (out.wishListItem id)

def finalizeStockItem (stockItem : StockItem) : TraderM E Unit :=
  if stockItem.listing.isDirty then demand (out.updateStockItem stockItem) else pure ()

def finalizeWishListItem (item : WishListItem) : TraderM E Unit :=
  if item.listing.isDirty then demand (out.updateWishListItem item) else pure ()

/-- As much in stock as the setting allows. -/
def stockIsFull (entry : ItemEntry) : TraderM E Bool :=
  let maxStockQuantity := ctx.settings.wtb.maxStockQuantity
  if !isDisabled maxStockQuantity && entry.stockId.isSome then do
    let item ← getStockItem out entry
    pure (item.any fun s => decide (maxStockQuantity ≤ s.owned))
  else pure false

/-- The knapsack of one entry: its order is chosen, at its cached price or at the new one. -/
def chosen (cap : Int) (wfmId : String) (postPrice potentialProfit : Int) (orders : OrderList) : Bool :=
  let allOrders := extractOrderSummary num orders .buy
  let candidates :=
    if allOrders.any fun i => i.wfmId = wfmId then allOrders
    else allOrders ++ [⟨postPrice, num.ofInt potentialProfit, wfmId, ""⟩]
  (knapsack num candidates cap).1.any fun i => i.wfmId = wfmId

/-- What a buy posts: the price, the profit it hopes for and the operations. -/
structure Offer where
  postPrice : Int
  potentialProfit : Int
  closedAvgMetric : Int
  operations : OperationSet

/-- From the market's price to the price that is posted, up to the knapsack. -/
def buyOffer (itemInfo : CacheTradableItem) (entry : ItemEntry) (price : ItemPriceInfo F) (live : LiveOrders)
    (info : OrderInfo) : Offer :=
  let wtb := ctx.settings.wtb
  let closedAvg := price.movingAvg.getD (num.ofInt 0)
  let operations := if price.guarded then OperationSet.add info.operations "FastDropGuard" else info.operations
  let (postPrice, operations) :=
    match shouldApplyMaxPriceDrop wtb.maxPriceDrop wtb.minListingsBelow info.price
        entry.buyMarketInfo.highestPrice (live.getPriceList .buy) .buy with
    | some reason => (info.price, OperationSet.add operations reason)
    | none => (entry.buyMarketInfo.highestPrice, operations)
  let closedAvgMetric := num.asI64 closedAvg - postPrice
  let itemMaxPrice := ctx.settings.general.getItemMaxPrice itemInfo.wfmId
  let (postPrice, operations) :=
    if 0 < itemMaxPrice ∧ itemMaxPrice < postPrice then
      (itemMaxPrice, OperationSet.add operations "AboveMaxBuyPrice")
    else (postPrice, operations)
  let operations :=
    if !isDisabled wtb.avgPriceCap ∧ wtb.avgPriceCap < postPrice then
      OperationSet.add (OperationSet.add operations "AboveAvgPrice") "Delete"
    else operations
  ⟨postPrice, closedAvgMetric - 1, closedAvgMetric, operations⟩

/-- The operations after the checks that follow the knapsack. -/
def Offer.judged (offer : Offer) (entry : ItemEntry) : OperationSet :=
  let operations := offer.operations
  let operations :=
    if offer.closedAvgMetric < 0 then OperationSet.add (OperationSet.add operations "Delete") "Overpriced"
    else operations
  if entry.buyMarketInfo.priceRange < ctx.settings.wtb.profitThreshold then
    OperationSet.add (OperationSet.add operations "Delete") "Underpriced"
  else operations

def progressBuying (itemInfo : CacheTradableItem) (entry : ItemEntry) (price : ItemPriceInfo F)
    (live : LiveOrders) (route : Route) (slots : Slots) : TraderM E Unit := do
  let wtb := ctx.settings.wtb
  if isBlacklisted ctx.settings itemInfo entry .buy then pure ()
  else
    let info ← getOrderInfo entry .buy route
    if entry.buyMarketInfo.volume = 0 ∨ entry.sellMarketInfo.volume = 0 then
      deleteOrder out.toOrdersOutside entry .buy route "NoMarket"
    else if ← stockIsFull out ctx entry then deleteOrder out.toOrdersOutside entry .buy route "MaxStock"
    else
      let offer := buyOffer num ctx itemInfo entry price live info
      let orders ← read World.orders
      if !isDisabled wtb.maxTotalPriceCap && !chosen num wtb.maxTotalPriceCap itemInfo.wfmId offer.postPrice
          offer.potentialProfit orders.cacheOrders then
        pure ()
      else
        let operations := offer.judged ctx entry
        let properties := populateOrderProperties info.properties entry operations
        let properties := setOrderMarketMetrics properties offer.potentialProfit
        progressOrder out.toOrdersOutside entry route .buy (asU32 (max offer.postPrice 1))
          (getPerTrade itemInfo) properties operations slots

/-- What a sale posts so far: the market's price, the price, the row's columns and the operations. -/
structure SellDraft where
  lowestPrice : Int := 0
  postPrice : Int := 0
  profit : Int := 0
  listing : Listing
  operations : OperationSet

namespace SellDraft

/-- A hidden row is taken off the market; one that is inactive already never comes here. -/
def hide (s : SellDraft) : SellDraft :=
  if s.listing.isHidden then
    { s with
      listing := ((s.listing.setStatus .inActive).setListPrice none).lock
      operations := OperationSet.add s.operations "Delete" }
  else s

def readMarket (s : SellDraft) (market : ItemMarketInfo) (minPrice : Option Int) : SellDraft :=
  if 2 ≤ market.volume then { s with lowestPrice := market.lowestPrice, postPrice := market.lowestPrice }
  else if minPrice.isNone then
    { s with
      lowestPrice := 0
      postPrice := 0
      listing := ((s.listing.setStatus .noSellers).setListPrice none).lock
      operations := OperationSet.add (OperationSet.add s.operations "Delete") "NoSellers" }
  else { s with lowestPrice := 0, postPrice := 0 }

def raiseToMinimum (s : SellDraft) (minPrice : Option Int) : SellDraft :=
  match minPrice with
  | none => s
  | some minPrice =>
      if max s.postPrice minPrice ≠ s.postPrice then
        { s with
          postPrice := max s.postPrice minPrice
          operations := OperationSet.add s.operations "MinimumPrice" }
      else s

def holdPrice (s : SellDraft) (wts : ItemWtsSettings) (currentOrderPrice : Int) (prices : List Int) :
    SellDraft :=
  match shouldApplyMaxPriceDrop wts.maxPriceDrop wts.minListingsBelow currentOrderPrice s.postPrice prices
      .sell with
  | some reason =>
      { s with postPrice := currentOrderPrice, operations := OperationSet.add s.operations reason }
  | none => s

def limitSma (s : SellDraft) (minimumSma closedAvg boughtPrice : Int) : SellDraft :=
  if !isDisabled minimumSma ∧ s.postPrice < closedAvg - minimumSma ∧ boughtPrice < s.lowestPrice then
    { s with
      postPrice := closedAvg
      listing := ((s.listing.setListPrice (some closedAvg)).setStatus .smaLimit).lock
      operations := OperationSet.add s.operations "SMALimit" }
  else s

/-- What was paid is at least 0, so that the difference does not wrap. -/
def wantProfit (s : SellDraft) (minimumProfit boughtPrice : Int) : SellDraft :=
  let profit := s.postPrice - boughtPrice
  if !isDisabled minimumProfit ∧ profit < minimumProfit then
    let postPrice := s.postPrice + (minimumProfit - profit)
    { s with
      postPrice := postPrice
      profit := postPrice - boughtPrice
      listing := ((s.listing.setStatus .toLowProfit).setListPrice (some postPrice)).lock
      operations := OperationSet.add s.operations "LowProfit" }
  else { s with profit := profit }

end SellDraft

/-- What a sale posts, and the stock row it leaves. -/
structure SellOffer where
  postPrice : Int
  profit : Int
  operations : OperationSet
  stockItem : StockItem

/-- From the market's price to the price that is posted, and what the stock row says of it. -/
def sellOffer (entry : ItemEntry) (price : ItemPriceInfo F) (live : LiveOrders) (info : OrderInfo)
    (stockItem : StockItem) : SellOffer :=
  let wts := ctx.settings.wts
  let closedAvg := num.asI64 (price.movingAvg.getD (num.ofInt 0))
  let operations := if price.guarded then OperationSet.add info.operations "FastDropGuard" else info.operations
  let draft : SellDraft := { listing := stockItem.listing, operations := operations }
  let draft := draft.hide.readMarket entry.sellMarketInfo stockItem.minPrice
  let draft := (draft.raiseToMinimum stockItem.minPrice).holdPrice wts info.price (live.getPriceList .sell)
  let draft := draft.limitSma (stockItem.minSma.getD wts.minSma) closedAvg stockItem.bought
  let draft := draft.wantProfit (stockItem.minProfit.getD wts.minProfit) stockItem.bought
  let listing := (draft.listing.setListPrice (some draft.postPrice)).setStatus .live
  ⟨draft.postPrice, draft.profit, draft.operations, { stockItem with listing := listing }⟩

def progressSelling (itemInfo : CacheTradableItem) (entry : ItemEntry) (price : ItemPriceInfo F)
    (live : LiveOrders) (route : Route) (slots : Slots) : TraderM E Unit := do
  if isBlacklisted ctx.settings itemInfo entry .sell then pure ()
  else
    match ← getStockItem out entry with
    | none => pure ()
    | some stockItem =>
        let info ← getOrderInfo entry .sell route
        if stockItem.listing.isHidden ∧ stockItem.listing.status = .inActive then pure ()
        else
          let offer := sellOffer num ctx entry price live info stockItem
          let properties := populateOrderProperties info.properties entry offer.operations
          let properties := setOrderMarketMetrics properties offer.profit
          progressOrder out.toOrdersOutside entry route .sell (asU32 (max offer.postPrice 1))
            (getPerTrade itemInfo) properties offer.operations slots
          finalizeStockItem out offer.stockItem

/-- What a wish posts, and the wish-list row it leaves. -/
structure WishOffer where
  postPrice : Int
  operations : OperationSet
  item : WishListItem

def wishOffer (entry : ItemEntry) (price : ItemPriceInfo F) (info : OrderInfo) (item : WishListItem) :
    WishOffer :=
  let operations := info.operations
  let listing := item.listing
  -- a hidden row that is inactive already never comes here
  let (listing, operations) :=
    if listing.isHidden then
      (((listing.setStatus .inActive).setListPrice none).lock, OperationSet.add operations "Delete")
    else (listing, operations)
  let market := entry.buyMarketInfo
  let (postPrice, listing, operations) :=
    if market.volume = 0 then
      (num.asI64 price.avgPrice, listing.setStatus .noBuyers, OperationSet.add operations "NoBuyers")
    else (market.highestPrice, listing, operations)
  let (postPrice, operations) :=
    if 0 < item.maxPrice ∧ item.maxPrice < postPrice then
      (item.maxPrice, OperationSet.add operations "MaxPrice")
    else (postPrice, operations)
  let (postPrice, operations) :=
    if 0 < item.minPrice ∧ postPrice < item.minPrice then
      (item.minPrice, OperationSet.add operations "MinPrice")
    else (postPrice, operations)
  let postPrice := max postPrice 1
  let listing := (listing.setListPrice (some postPrice)).setStatus .live
  ⟨postPrice, operations, { item with listing := listing }⟩

def progressWishList (itemInfo : CacheTradableItem) (entry : ItemEntry) (price : ItemPriceInfo F)
    (route : Route) (slots : Slots) : TraderM E Unit := do
  if isBlacklisted ctx.settings itemInfo entry .wishList then pure ()
  else
    match ← getWishListItem out entry with
    | none => pure ()
    | some item =>
        let info ← getOrderInfo entry .buy route
        if item.listing.isHidden ∧ item.listing.status = .inActive then pure ()
        else
          let offer := wishOffer num entry price info item
          let properties := populateOrderProperties info.properties entry offer.operations
          let properties := setOrderMarketMetrics properties 0
          progressOrder out.toOrdersOutside entry route .buy (asU32 offer.postPrice) (getPerTrade itemInfo)
            properties offer.operations slots
          finalizeWishListItem out offer.item

/-- The price row of an entry, all zero and cold when the source has none. -/
def priceOf (itemInfo : CacheTradableItem) (entry : ItemEntry) : ItemPriceInfo F :=
  (ctx.prices itemInfo.wfmId entry.subType).getD (.default num)

/-- The book of an item as the trader reads it: in-game users' orders of the sub-type, without its own. -/
def readBook (entry : ItemEntry) (live : LiveOrders) : LiveOrders :=
  let live := live.retain fun o => decide (o.order.subtype = .fromEntity entry.subType)
  let live := live.retain fun o => decide (o.userName ≠ ctx.username)
  (live.retain fun o => decide (o.status = .inGame)).sortByPlatinum

/-- The three workflows of an entry. -/
def progressEntry (itemInfo : CacheTradableItem) (entry : ItemEntry) (price : ItemPriceInfo F)
    (live : LiveOrders) (route : Route) (slots : Slots) : TraderM E Unit := do
  let has := OperationSet.has entry.operations
  if has "Buy" && !has "WishList" then progressBuying num out ctx itemInfo entry price live route slots
  else pure ()
  if has "WishList" then progressWishList num out ctx itemInfo entry price route slots else pure ()
  if has "Sell" && entry.stockId.isSome then progressSelling num out ctx itemInfo entry price live route slots
  else pure ()

def setProcessing (entry : Option Bool) : TraderM E Unit := change fun w => { w with processing := entry }

def turnTo (entry : ItemEntry) (warm : Bool) : TraderM E Unit :=
  change fun w => { w with processing := some warm, trace := w.trace ++ [.turn entry] }

/-- One entry; one that the cache cannot resolve is skipped. -/
def processEntry (slots : Slots) (entry : ItemEntry) : TraderM E Unit := do
  match ctx.tradable entry.wfmUrl with
  | none => pure ()
  | some itemInfo =>
      let price := priceOf num ctx itemInfo entry
      let orders ← read World.orders
      let route := routeFor orders.globalDryRun price.warm
      turnTo entry price.warm
      let live := readBook ctx entry (← demand (out.liveOrders entry.wfmUrl))
      progressEntry num out ctx itemInfo (entry.applyMarketInfo live) price live route slots
      setProcessing none

def shouldStop : TraderM E Bool := do
  let running ← ask out.running
  pure (!running || ctx.banned)

/-- Stock entries headed for a live sell order that does not exist yet. -/
def sellBacklog (orders : TradeOrders) (entries : List ItemEntry) : Nat :=
  entries.countP fun e =>
    OperationSet.has e.operations "Sell" && e.stockId.isSome &&
      (let warm := ((ctx.prices e.wfmId e.subType).map ItemPriceInfo.warm).getD false
       let route := routeFor orders.globalDryRun warm
       decide (route = .live) && (orders.findOrder e.wfmId (.fromEntity e.subType) .sell route).isNone)

/-- A delete whose failure is only reported. -/
def tryDelete (orderId : String) : TraderM E Unit := do
  let _ ← attempt (delete out.toOrdersOutside orderId)

def deleteUnwantedOrders (myOrders : OrderList) : TraderM E Unit :=
  if !ctx.settings.deleteConflictingOrders && !ctx.settings.autoDelete then pure ()
  else do
    let justStarted ← ask out.justStarted
    let _ ← eachUntil (shouldStop out ctx) (ordersToDelete ctx.settings justStarted myOrders) (tryDelete out)

/-- Deletes buy orders no candidate or wish-list entry has covered for `orphanGrace`. -/
def sweepOrphans (entries : List ItemEntry) : TraderM E Unit := do
  let now ← ask out.now
  let orders ← read World.orders
  let orphans := orphanBuyOrders ctx.settings entries orders.cacheOrders
  let firstSeen ← read World.orphanFirstSeen
  let due := dueOrphans firstSeen orphans now orphanGrace
  change fun w =>
    { w with
      orphanFirstSeen := seeOrphans firstSeen orphans now
      sweeps := w.sweeps ++ [⟨ctx.settings, entries, orders.cacheOrders, now, due⟩] }
  each due (tryDelete out)

/-- The global knapsack: what it leaves out goes, unless it was created in this cycle. -/
def holdCap (existing : List String) : TraderM E Unit := do
  let orders ← read World.orders
  let allBuyOrders := extractOrderSummary num orders.cacheOrders .buy
  let cap := ctx.settings.wtb.maxTotalPriceCap
  if 1 < allBuyOrders.length ∧ isDisabled cap = false then
    each (knapsack num allBuyOrders cap).2 fun order =>
      if order.id = "" ∨ order.id ∉ existing then pure () else tryDelete out order.id
  else pure ()

/-- The entries of a cycle; whether it was interrupted, and the buy orders it began with. -/
def processEntries (entries : List ItemEntry) : TraderM E (Bool × List String) := do
  let orders ← read World.orders
  let existing := orders.cacheOrders.orderIds .buy
  let wishList ← demand out.wishListKeys
  let slots : Slots := ⟨sellBacklog ctx orders entries, wishList⟩
  let interrupted ← eachUntil (shouldStop out ctx) entries (processEntry num out ctx slots)
  pure (interrupted, existing)

def byPriority (entries : List ItemEntry) : List ItemEntry :=
  entries.insertionSort fun a b => b.priority ≤ a.priority

def processItems (interestingItems : List ItemEntry) : TraderM E Nat := do
  let entries := byPriority interestingItems
  let (interrupted, existing) ← processEntries num out ctx entries
  holdCap num out ctx existing
  if shouldSweep interrupted entries then sweepOrphans out ctx entries else pure ()
  pure entries.length

/-- One trader cycle. Returns how many interesting items were processed. -/
def check : TraderM E Nat := do
  setProcessing none
  let orders ← read World.orders
  deleteUnwantedOrders out ctx orders.cacheOrders
  let entries ← demand out.interestingItems
  processItems num out ctx entries

end Cycle

end Quantframe.Trader
