import Quantframe.Trader.Posted

/-!
# The price of a sale

Five rules set it in turn: the market, the minimum price, the drop guard, the average and the profit. Each keeps
what the rules before it asked for.
-/

namespace Quantframe.Trader

open Lib Lib.Effect Market
open Handlers (OperationSet)
open Trades (Error)

/-! ### The rules in closed form -/

/-- What the rules of a sale read; the lowest price is 0 below two sellers. What was paid is at least 0: with it the
differences of the source, which are of `i64`, are those here, and a sum that wraps fits no order either way. -/
structure SaleTerms where
  lowestPrice : Int
  minPrice : Option Int
  currentOrderPrice : Int
  maxPriceDrop : Int
  minListingsBelow : Int
  prices : List Int
  closedAvg : Int
  bought : Int
  minimumSma : Int
  minimumProfit : Int

namespace SaleTerms

variable (s : SaleTerms)

def floorPrice : Int := s.minPrice.elim s.lowestPrice (max s.lowestPrice)

/-- The drop guard keeps the price of the order that stands. -/
def Held : Prop :=
  (shouldApplyMaxPriceDrop s.maxPriceDrop s.minListingsBelow s.currentOrderPrice s.floorPrice s.prices .sell).isSome =
    true

instance : Decidable s.Held := inferInstanceAs (Decidable (_ = true))

def heldPrice : Int := if s.Held then s.currentOrderPrice else s.floorPrice

def SmaLimits : Prop :=
  isDisabled s.minimumSma = false ∧ s.heldPrice < s.closedAvg - s.minimumSma ∧ s.bought < s.lowestPrice

instance : Decidable s.SmaLimits := inferInstanceAs (Decidable (_ ∧ _ ∧ _))

def averagedPrice : Int := if s.SmaLimits then s.closedAvg else s.heldPrice

def LacksProfit : Prop := isDisabled s.minimumProfit = false ∧ s.averagedPrice - s.bought < s.minimumProfit

instance : Decidable s.LacksProfit := inferInstanceAs (Decidable (_ ∧ _))

def price : Int := if s.LacksProfit then s.bought + s.minimumProfit else s.averagedPrice

theorem le_floorPrice {minPrice : Int} (h : s.minPrice = some minPrice) : minPrice ≤ s.floorPrice := by
  rw [floorPrice, h]
  exact le_max_right _ _

/-- What is held is not less than what the market and the minimum ask for. -/
theorem floorPrice_le_heldPrice : s.floorPrice ≤ s.heldPrice := by
  rw [heldPrice]
  split
  next hheld =>
    rw [Held, shouldApplyMaxPriceDrop] at hheld
    split at hheld
    · cases hheld
    · simp only at hheld
      split at hheld
      · cases hheld
      · next hvalid => exact not_lt.mp fun hlt => hvalid (decide_eq_true hlt)
  next => exact le_refl _

theorem heldPrice_le_averagedPrice : s.heldPrice ≤ s.averagedPrice := by
  rw [averagedPrice]
  split
  next hsma =>
    obtain ⟨henabled, hbelow, -⟩ := hsma
    have hsma := of_decide_eq_false henabled
    omega
  next => exact le_refl _

theorem averagedPrice_le_price : s.averagedPrice ≤ s.price := by
  rw [price]
  split
  next hlacks =>
    obtain ⟨-, hlacks⟩ := hlacks
    omega
  next => exact le_refl _

theorem profit_le_price (h : isDisabled s.minimumProfit = false) : s.bought + s.minimumProfit ≤ s.price := by
  rw [price]
  split
  next => exact le_refl _
  next hhas =>
    have hhas := not_lt.mp fun hlacks => hhas ⟨h, hlacks⟩
    omega

/-- All that a price can be made of; what is disabled counts nothing. -/
def total : Int :=
  max s.lowestPrice 0 + max (s.minPrice.getD 0) 0 + max s.currentOrderPrice 0 + max s.closedAvg 0 + max s.bought 0 +
    max s.minimumProfit 0

/-- The price is one of the amounts it is made of, or what was paid with the profit on it. -/
theorem price_cases : s.price = s.lowestPrice ∨ s.minPrice = some s.price ∨ s.price = s.currentOrderPrice ∨
    s.price = s.closedAvg ∨ (isDisabled s.minimumProfit = false ∧ s.price = s.bought + s.minimumProfit) := by
  have hfloor : s.floorPrice = s.lowestPrice ∨ s.minPrice = some s.floorPrice := by
    rw [floorPrice]
    cases s.minPrice with
    | none => exact .inl rfl
    | some minPrice =>
        rcases le_total minPrice s.lowestPrice with hle | hle
        · exact .inl (max_eq_left hle)
        · exact .inr (congrArg some (max_eq_right hle).symm)
  rw [price]
  split
  next hlacks => exact .inr (.inr (.inr (.inr ⟨hlacks.1, rfl⟩)))
  next =>
    rw [averagedPrice]
    split
    next => exact .inr (.inr (.inr (.inl rfl)))
    next =>
      rw [heldPrice]
      split
      next => exact .inr (.inr (.inl rfl))
      next => exact hfloor.imp id .inl

theorem price_le_total : s.price ≤ s.total := by
  rw [total]
  rcases s.price_cases with h | h | h | h | ⟨-, h⟩
  · omega
  · rw [h, Option.getD_some]
    omega
  · omega
  · omega
  · omega

/-- A posted price that keeps every floor, with the rules in their order. -/
structure KeepsFloors (p : Nat) : Prop where
  one : 1 ≤ p
  minPrice : ∀ minPrice, s.minPrice = some minPrice → minPrice ≤ p
  profit : isDisabled s.minimumProfit = false → s.bought + s.minimumProfit ≤ p
  posted : (p : Int) = max s.price 1
  held : s.floorPrice ≤ s.heldPrice
  averaged : s.heldPrice ≤ s.averagedPrice
  profited : s.averagedPrice ≤ s.price

theorem keepsFloors_price (h : s.total < 2 ^ 32) : s.KeepsFloors (asU32 (max s.price 1)) := by
  have hposted : ((asU32 (max s.price 1) : Nat) : Int) = max s.price 1 := by
    have hle := s.price_le_total
    rw [asU32]
    omega
  have hprice : s.price ≤ (asU32 (max s.price 1) : Nat) := by
    rw [hposted]
    exact le_max_left _ _
  refine
    { one := ?_
      minPrice := fun minPrice hmin => ?_
      profit := fun henabled => (s.profit_le_price henabled).trans hprice
      posted := hposted
      held := s.floorPrice_le_heldPrice
      averaged := s.heldPrice_le_averagedPrice
      profited := s.averagedPrice_le_price }
  · omega
  · have hfloor := s.le_floorPrice hmin
    have hheld := s.floorPrice_le_heldPrice
    have haveraged := s.heldPrice_le_averagedPrice
    have hprofited := s.averagedPrice_le_price
    omega

end SaleTerms

/-! ### The rules of the code -/

section Offer

variable {F : Type} (num : PriceFloats F) (ctx : TradeContext F) (entry : ItemEntry) (price : ItemPriceInfo F)
  (live : LiveOrders) (info : OrderInfo) (stockItem : StockItem)

def SaleTerms.of : SaleTerms where
  lowestPrice := if 2 ≤ entry.sellMarketInfo.volume then entry.sellMarketInfo.lowestPrice else 0
  minPrice := stockItem.minPrice
  currentOrderPrice := info.price
  maxPriceDrop := ctx.settings.wts.maxPriceDrop
  minListingsBelow := ctx.settings.wts.minListingsBelow
  prices := live.getPriceList .sell
  closedAvg := num.asI64 (price.movingAvg.getD (num.ofInt 0))
  bought := stockItem.bought
  minimumSma := stockItem.minSma.getD ctx.settings.wts.minSma
  minimumProfit := stockItem.minProfit.getD ctx.settings.wts.minProfit

variable {num ctx entry price live info stockItem}

theorem readMarket_price (s : SellDraft) (market : ItemMarketInfo) (minPrice : Option Int) :
    (s.readMarket market minPrice).lowestPrice = (if 2 ≤ market.volume then market.lowestPrice else 0) ∧
      (s.readMarket market minPrice).postPrice = (if 2 ≤ market.volume then market.lowestPrice else 0) := by
  rw [SellDraft.readMarket]
  split
  · exact ⟨rfl, rfl⟩
  · split <;> exact ⟨rfl, rfl⟩

theorem raiseToMinimum_price (s : SellDraft) (minPrice : Option Int) :
    (s.raiseToMinimum minPrice).lowestPrice = s.lowestPrice ∧
      (s.raiseToMinimum minPrice).postPrice = minPrice.elim s.postPrice (max s.postPrice) := by
  cases minPrice with
  | none => exact ⟨rfl, rfl⟩
  | some minPrice =>
      rw [SellDraft.raiseToMinimum]
      split
      next => exact ⟨rfl, rfl⟩
      next hsame => exact ⟨rfl, (not_not.mp hsame).symm⟩

theorem holdPrice_price (s : SellDraft) (wts : ItemWtsSettings) (currentOrderPrice : Int) (prices : List Int) :
    (s.holdPrice wts currentOrderPrice prices).lowestPrice = s.lowestPrice ∧
      (s.holdPrice wts currentOrderPrice prices).postPrice =
        if (shouldApplyMaxPriceDrop wts.maxPriceDrop wts.minListingsBelow currentOrderPrice s.postPrice prices
          .sell).isSome = true then currentOrderPrice else s.postPrice := by
  rw [SellDraft.holdPrice]
  cases shouldApplyMaxPriceDrop wts.maxPriceDrop wts.minListingsBelow currentOrderPrice s.postPrice prices .sell with
  | some reason => exact ⟨rfl, rfl⟩
  | none => exact ⟨rfl, rfl⟩

/-- The draft before the average and the profit are looked at. -/
def heldDraft (ctx : TradeContext F) (entry : ItemEntry) (price : ItemPriceInfo F) (live : LiveOrders) (info : OrderInfo)
    (stockItem : StockItem) : SellDraft :=
  let operations := if price.guarded then OperationSet.add info.operations "FastDropGuard" else info.operations
  let draft : SellDraft := { listing := stockItem.listing, operations := operations }
  let draft := draft.hide.readMarket entry.sellMarketInfo stockItem.minPrice
  (draft.raiseToMinimum stockItem.minPrice).holdPrice ctx.settings.wts info.price (live.getPriceList .sell)

theorem heldDraft_price (num : PriceFloats F) : (heldDraft ctx entry price live info stockItem).lowestPrice =
    (SaleTerms.of num ctx entry price live info stockItem).lowestPrice ∧
      (heldDraft ctx entry price live info stockItem).postPrice =
        (SaleTerms.of num ctx entry price live info stockItem).heldPrice := by
  rw [heldDraft]
  rw [(holdPrice_price _ _ _ _).1, (holdPrice_price _ _ _ _).2, (raiseToMinimum_price _ _).1,
    (raiseToMinimum_price _ _).2, (readMarket_price _ _ _).1, (readMarket_price _ _ _).2]
  exact ⟨rfl, rfl⟩

/-- The average limits the draft where the terms say so. -/
theorem limitSma_of_limits (h : (SaleTerms.of num ctx entry price live info stockItem).SmaLimits) :
    let terms := SaleTerms.of num ctx entry price live info stockItem
    let draft := heldDraft ctx entry price live info stockItem
    draft.limitSma terms.minimumSma terms.closedAvg terms.bought =
      { draft with
        postPrice := terms.closedAvg
        listing := ((draft.listing.setListPrice (some terms.closedAvg)).setStatus .smaLimit).lock
        operations := OperationSet.add draft.operations "SMALimit" } := by
  obtain ⟨henabled, hbelow, hworth⟩ := h
  refine if_pos ⟨?_, ?_, ?_⟩
  · rw [henabled]
    rfl
  · rw [(heldDraft_price num).2]
    exact hbelow
  · rw [(heldDraft_price num).1]
    exact hworth

theorem limitSma_of_not_limits (h : ¬ (SaleTerms.of num ctx entry price live info stockItem).SmaLimits) :
    let terms := SaleTerms.of num ctx entry price live info stockItem
    let draft := heldDraft ctx entry price live info stockItem
    draft.limitSma terms.minimumSma terms.closedAvg terms.bought = draft := by
  refine if_neg fun hlimits => h ?_
  rw [(heldDraft_price num).1, (heldDraft_price num).2] at hlimits
  exact ⟨(Bool.not_eq_true' _).mp hlimits.1, hlimits.2⟩

/-- The draft after the average. -/
def limitedDraft (num : PriceFloats F) (ctx : TradeContext F) (entry : ItemEntry) (price : ItemPriceInfo F)
    (live : LiveOrders) (info : OrderInfo) (stockItem : StockItem) : SellDraft :=
  let terms := SaleTerms.of num ctx entry price live info stockItem
  (heldDraft ctx entry price live info stockItem).limitSma terms.minimumSma terms.closedAvg terms.bought

theorem limitedDraft_price : (limitedDraft num ctx entry price live info stockItem).postPrice =
    (SaleTerms.of num ctx entry price live info stockItem).averagedPrice := by
  rw [limitedDraft, SaleTerms.averagedPrice]
  split
  next hlimits => rw [limitSma_of_limits hlimits]
  next hlimits => rw [limitSma_of_not_limits hlimits, (heldDraft_price num).2]

/-- The draft after the profit. -/
def wantedDraft (num : PriceFloats F) (ctx : TradeContext F) (entry : ItemEntry) (price : ItemPriceInfo F)
    (live : LiveOrders) (info : OrderInfo) (stockItem : StockItem) : SellDraft :=
  let terms := SaleTerms.of num ctx entry price live info stockItem
  (limitedDraft num ctx entry price live info stockItem).wantProfit terms.minimumProfit terms.bought

theorem wantProfit_of_lacks (h : (SaleTerms.of num ctx entry price live info stockItem).LacksProfit) :
    let terms := SaleTerms.of num ctx entry price live info stockItem
    let draft := limitedDraft num ctx entry price live info stockItem
    wantedDraft num ctx entry price live info stockItem =
      { draft with
        postPrice := terms.price
        profit := terms.price - terms.bought
        listing := ((draft.listing.setStatus .toLowProfit).setListPrice (some terms.price)).lock
        operations := OperationSet.add draft.operations "LowProfit" } := by
  have hprice : (SaleTerms.of num ctx entry price live info stockItem).averagedPrice +
      ((SaleTerms.of num ctx entry price live info stockItem).minimumProfit -
        ((SaleTerms.of num ctx entry price live info stockItem).averagedPrice -
          (SaleTerms.of num ctx entry price live info stockItem).bought)) =
      (SaleTerms.of num ctx entry price live info stockItem).price := by
    rw [SaleTerms.price, if_pos h]
    omega
  obtain ⟨henabled, hlacks⟩ := h
  rw [wantedDraft, SellDraft.wantProfit, limitedDraft_price, if_pos ⟨by rw [henabled]; rfl, hlacks⟩]
  simp only [hprice]

theorem wantProfit_of_not_lacks (h : ¬ (SaleTerms.of num ctx entry price live info stockItem).LacksProfit) :
    let terms := SaleTerms.of num ctx entry price live info stockItem
    let draft := limitedDraft num ctx entry price live info stockItem
    wantedDraft num ctx entry price live info stockItem =
      { draft with profit := draft.postPrice - terms.bought } := by
  refine if_neg ?_
  rw [limitedDraft_price]
  rintro ⟨henabled, hlacks⟩
  exact h ⟨(Bool.not_eq_true' _).mp henabled, hlacks⟩

theorem sellOffer_eq : sellOffer num ctx entry price live info stockItem =
    let draft := wantedDraft num ctx entry price live info stockItem
    ⟨draft.postPrice, draft.profit, draft.operations,
      { stockItem with listing := (draft.listing.setListPrice (some draft.postPrice)).setStatus .live }⟩ := rfl

/-- What a sale posts is the price of its terms. -/
theorem sellOffer_price : (sellOffer num ctx entry price live info stockItem).postPrice =
    (SaleTerms.of num ctx entry price live info stockItem).price := by
  rw [sellOffer_eq]
  by_cases hlacks : (SaleTerms.of num ctx entry price live info stockItem).LacksProfit
  · rw [wantProfit_of_lacks hlacks]
  · rw [wantProfit_of_not_lacks hlacks, SaleTerms.price, if_neg hlacks]
    exact limitedDraft_price

end Offer

/-! ### The sale -/

section Sale

variable {E F : Type} {num : PriceFloats F} {out : Outside E} {ctx : TradeContext F} {w : World E} {ext : E}
  {entry : ItemEntry} {id : Int} {row : StockItem}

/-- The world after an entry has read its row and looked for its order. -/
def World.looked (w : World E) (ext : E) (entry : ItemEntry) (orderType : OrderType) (route : Route) : World E :=
  let subType := WFSubType.fromEntity entry.subType
  let found := w.orders.findOrder entry.wfmId subType orderType route
  { w with
    ext := ext
    trace := w.trace ++ [.lookup entry.wfmId subType orderType route found w.orders] }

def foundOrder (w : World E) (entry : ItemEntry) (orderType : OrderType) (route : Route) : Option Order :=
  w.orders.findOrder entry.wfmId (.fromEntity entry.subType) orderType route

/-- The write of a sale, then that of its row. -/
def writeSale (out : Outside E) (itemInfo : CacheTradableItem) (entry : ItemEntry) (route : Route) (slots : Slots)
    (info : OrderInfo) (offer : SellOffer) : TraderM E Unit := do
  let properties := populateOrderProperties info.properties entry offer.operations
  let properties := setOrderMarketMetrics properties offer.profit
  progressOrder out.toOrdersOutside entry route .sell (asU32 (max offer.postPrice 1)) (getPerTrade itemInfo)
    properties offer.operations slots
  finalizeStockItem out offer.stockItem

/-- A question that is answered. -/
theorem demand_exec {α : Type} {q : E → Except Error α × E} {a : α} (h : q w.ext = (.ok a, ext)) :
    (demand q).exec w = (.ok a, { w with ext := ext }) := by
  have hask : (ask q).exec w = (.ok (.ok a), { w with ext := ext }) := by
    change (Except.ok (q w.ext).1, { w with ext := (q w.ext).2 }) = _
    rw [h]
  rw [demand, exec_bind, hask]
  rfl

/-- A sale that finds its row. -/
theorem progressSelling_exec (hid : entry.stockId = some id) (hrow : out.stockItem id w.ext = (.ok (some row), ext))
    (itemInfo : CacheTradableItem) (price : ItemPriceInfo F) (live : LiveOrders) (route : Route) (slots : Slots) :
    (progressSelling num out ctx itemInfo entry price live route slots).exec w =
      if isBlacklisted ctx.settings itemInfo entry .sell = true then (.ok (), w)
      else if row.listing.isHidden = true ∧ row.listing.status = .inActive then
        (.ok (), w.looked ext entry .sell route)
      else
        (writeSale out itemInfo entry route slots (.of (foundOrder w entry .sell route))
          (sellOffer num ctx entry price live (.of (foundOrder w entry .sell route)) row)).exec
            (w.looked ext entry .sell route) := by
  have hgot : (getStockItem out entry).exec w = (.ok (some row), { w with ext := ext }) := by
    rw [getStockItem, hid]
    exact demand_exec hrow
  rw [progressSelling]
  split
  · rfl
  · rw [exec_bind, hgot]
    dsimp only
    rw [exec_bind]
    change (if _ then _ else _ : TraderM E Unit).exec _ = _
    split
    · rfl
    · rfl

/-- The price a sale is posted at, in every write of it that sets one. -/
theorem writeSale_trail {start : World E} (itemInfo : CacheTradableItem) (route : Route) (slots : Slots)
    (info : OrderInfo) (offer : SellOffer) {Good : Nat → Prop}
    (h : OperationSet.has offer.operations "Delete" = false → Good (asU32 (max offer.postPrice 1))) :
    Keeps (Trail (fun write => ∀ p, write.action.price = some p → Good p) start)
      (writeSale out itemInfo entry route slots info offer) :=
  (progressOrder_trail (permits_price h) slots).bind fun _ => (quiet_finalizeStockItem _).trail

theorem Trail.looked {P : Write → Prop} {start : World E} (h : Trail P start w) (ext : E) (entry : ItemEntry)
    (orderType : OrderType) (route : Route) : Trail P start (w.looked ext entry orderType route) :=
  h.append rfl fun write hwrite => by cases List.mem_singleton.mp hwrite

/-- No rule of a sale undoes the floor that one before it has set: every order it creates or updates is posted at a
price of at least 1, the minimum price of the row, and what was paid with the minimum profit in force. -/
theorem sale_keeps_floors (hid : entry.stockId = some id) (hrow : out.stockItem id w.ext = (.ok (some row), ext))
    (itemInfo : CacheTradableItem) (price : ItemPriceInfo F) (live : LiveOrders) (route : Route) (slots : Slots)
    (htotal : (SaleTerms.of num ctx entry price live (.of (foundOrder w entry .sell route)) row).total < 2 ^ 32) :
    Trail
      (fun write => ∀ p, write.action.price = some p →
        (SaleTerms.of num ctx entry price live (.of (foundOrder w entry .sell route)) row).KeepsFloors p)
      w ((progressSelling num out ctx itemInfo entry price live route slots).exec w).2 := by
  rw [progressSelling_exec hid hrow]
  split
  · exact .refl w
  · split
    · exact (Trail.refl w).looked ext entry .sell route
    · refine writeSale_trail itemInfo route slots _ _ (fun _ => ?_) _ ((Trail.refl w).looked ext entry .sell route)
      rw [sellOffer_price]
      exact SaleTerms.keepsFloors_price _ htotal

end Sale

/-- Bought for 10, not to be sold below 25, and with a profit of 20 at least. -/
def StockItem.prism : StockItem where
  id := 7
  bought := 10
  owned := 1
  subType := none
  listing := { listPrice := none, status := .pending, isHidden := false }
  priceHistory := []
  properties := none
  minPrice := some 25
  minProfit := some 20
  minSma := none

/-- The entry of a stock row, with the book of the item read. -/
def ItemEntry.ofStockRow (row : StockItem) (wfmId : String) (live : LiveOrders) : ItemEntry :=
  ItemEntry.applyMarketInfo
    { stockId := some row.id, wfmUrl := wfmId, wfmId := wfmId, sellQuantity := row.owned, operations := ["Sell"] } live

def itemNamed (wfmId : String) : CacheTradableItem := ⟨wfmId, wfmId, false⟩

/-- The world after a sale of the prism, which has no order yet. -/
def soldPrism : World Nat :=
  ((progressSelling .whole (.holding .prism) (.sample .plain true) (itemNamed "prism")
    (.ofStockRow .prism "prism" .spread) ⟨some 15, 15, true, false⟩ .spread .live {}).exec (.holding [])).2

def prismTerms : SaleTerms :=
  .of .whole (.sample .plain true) (.ofStockRow .prism "prism" .spread) ⟨some 15, 15, true, false⟩ .spread (.of none)
    .prism

/-- The prism is posted at 30. -/
theorem sale_keeps_floors_prism :
    posted soldPrism.trace = [30] ∧ ∀ p ∈ posted soldPrism.trace, prismTerms.KeepsFloors p := by
  have htrail : Trail (fun write => ∀ p, write.action.price = some p → prismTerms.KeepsFloors p) (.holding [])
      soldPrism := sale_keeps_floors rfl rfl _ _ _ _ _ (by decide +kernel)
  exact ⟨by decide +kernel, htrail.posted rfl⟩

end Quantframe.Trader
