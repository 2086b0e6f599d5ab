import Mathlib.Algebra.Group.Int.Defs
import Mathlib.Algebra.GroupWithZero.Nat
import Quantframe.Trader.SalePrice

/-!
# Bids

What a bid is posted at, and when it goes. The drop guard compares with the bid that stands, and with 0 where there is
none; a bid that the knapsack leaves out is not looked at any further.
-/

namespace Quantframe.Trader

open Lib Lib.Effect Market
open Handlers (OperationSet)
open Trades (Error)

/-! ### The rules in closed form -/

/-- What the rules of a bid read. -/
structure BidTerms where
  highestPrice : Int
  currentOrderPrice : Int
  maxPriceDrop : Int
  minListingsBelow : Int
  prices : List Int
  closedAvg : Int
  itemMaxPrice : Int
  avgPriceCap : Int
  priceRange : Int
  profitThreshold : Int

namespace BidTerms

variable (b : BidTerms)

/-- The drop guard keeps the price of the order that stands. -/
def Held : Prop :=
  (shouldApplyMaxPriceDrop b.maxPriceDrop b.minListingsBelow b.currentOrderPrice b.highestPrice b.prices .buy).isSome =
    true

instance : Decidable b.Held := inferInstanceAs (Decidable (_ = true))

def heldPrice : Int := if b.Held then b.currentOrderPrice else b.highestPrice

/-- The price before the floor of 1. -/
def cappedPrice : Int := if 0 < b.itemMaxPrice ∧ b.itemMaxPrice < b.heldPrice then b.itemMaxPrice else b.heldPrice

/-- The price to post. -/
def price : Int := max b.cappedPrice 1

/-- The highest bid under the item's own maximum. -/
def marketPrice : Int := max 1 (if 0 < b.itemMaxPrice then min b.highestPrice b.itemMaxPrice else b.highestPrice)

def Overpriced : Prop := b.closedAvg - b.heldPrice < 0

def AboveCap : Prop := isDisabled b.avgPriceCap = false ∧ b.avgPriceCap < b.cappedPrice

def Underpriced : Prop := b.priceRange < b.profitThreshold

/-- The bid must go. -/
def Due : Prop :=
  b.closedAvg < b.price ∨ b.priceRange < b.profitThreshold ∨
    (isDisabled b.avgPriceCap = false ∧ b.avgPriceCap < b.price)

theorem cappedPrice_le_heldPrice : b.cappedPrice ≤ b.heldPrice := by
  rw [cappedPrice]
  split
  next h => exact Int.le_of_lt h.2
  next => exact le_refl _

/-- A price that the floor does not raise is judged as it is posted. -/
theorem Due.judged {b : BidTerms} (h : b.Due) (hfloor : 1 ≤ b.cappedPrice) :
    b.Overpriced ∨ b.Underpriced ∨ b.AboveCap := by
  have hprice : b.price = b.cappedPrice := max_eq_left hfloor
  have hle := b.cappedPrice_le_heldPrice
  rcases h with h | h | ⟨henabled, h⟩
  · rw [hprice] at h
    exact .inl (by rw [Overpriced]; omega)
  · exact .inr (.inl h)
  · rw [hprice] at h
    exact .inr (.inr ⟨henabled, h⟩)

/-- Under an enabled cap no price of 0 is too high. -/
theorem AboveCap.positive {b : BidTerms} (h : b.AboveCap) : 1 ≤ b.cappedPrice := by
  obtain ⟨henabled, h⟩ := h
  have henabled := of_decide_eq_false henabled
  omega

/-- What the floor of 1 alone makes due is not judged. -/
theorem Due.judged_iff {b : BidTerms} (h : b.Due) :
    b.Overpriced ∨ b.Underpriced ∨ b.AboveCap ↔ 1 ≤ b.cappedPrice ∨ b.Overpriced ∨ b.Underpriced := by
  constructor
  · rintro (hover | hunder | habove)
    · exact .inr (.inl hover)
    · exact .inr (.inr hunder)
    · exact .inl habove.positive
  · rintro (hfloor | hover | hunder)
    · exact h.judged hfloor
    · exact .inl hover
    · exact .inr (.inl hunder)

/-- The price of a bid that has no order yet is the market's, where the guard has nothing to hold. -/
theorem price_of_not_held (h : ¬ b.Held) : b.price = b.marketPrice := by
  rw [price, cappedPrice, marketPrice, heldPrice, if_neg h]
  split <;> split <;> omega

/-- Held at the price of no order, a bid is posted at 1. -/
theorem price_of_held (h : b.Held) (hcurrent : b.currentOrderPrice = 0) : b.heldPrice = 0 ∧ b.price = 1 := by
  have hheld : b.heldPrice = 0 := by rw [heldPrice, if_pos h, hcurrent]
  refine ⟨hheld, ?_⟩
  rw [price, cappedPrice, hheld]
  split <;> omega

end BidTerms

/-! ### The rules of the code -/

section Offer

variable {F : Type} (num : PriceFloats F) (ctx : TradeContext F) (itemInfo : CacheTradableItem) (entry : ItemEntry)
  (price : ItemPriceInfo F) (live : LiveOrders) (info : OrderInfo)

def BidTerms.of : BidTerms where
  highestPrice := entry.buyMarketInfo.highestPrice
  currentOrderPrice := info.price
  maxPriceDrop := ctx.settings.wtb.maxPriceDrop
  minListingsBelow := ctx.settings.wtb.minListingsBelow
  prices := live.getPriceList .buy
  closedAvg := num.asI64 (price.movingAvg.getD (num.ofInt 0))
  itemMaxPrice := ctx.settings.general.getItemMaxPrice itemInfo.wfmId
  avgPriceCap := ctx.settings.wtb.avgPriceCap
  priceRange := entry.buyMarketInfo.priceRange
  profitThreshold := ctx.settings.wtb.profitThreshold

variable {num ctx itemInfo entry price live info}

/-- The price that the offer starts from, with the reason it is held for. -/
def heldOffer (ctx : TradeContext F) (entry : ItemEntry) (price : ItemPriceInfo F) (live : LiveOrders)
    (info : OrderInfo) : Int × OperationSet :=
  let operations := if price.guarded then OperationSet.add info.operations "FastDropGuard" else info.operations
  match shouldApplyMaxPriceDrop ctx.settings.wtb.maxPriceDrop ctx.settings.wtb.minListingsBelow info.price
      entry.buyMarketInfo.highestPrice (live.getPriceList .buy) .buy with
  | some reason => (info.price, OperationSet.add operations reason)
  | none => (entry.buyMarketInfo.highestPrice, operations)

variable (num ctx itemInfo entry price live info) in
theorem heldOffer_price :
    (heldOffer ctx entry price live info).1 = (BidTerms.of num ctx itemInfo entry price live info).heldPrice := by
  rw [heldOffer, BidTerms.heldPrice]
  cases hdrop : shouldApplyMaxPriceDrop ctx.settings.wtb.maxPriceDrop ctx.settings.wtb.minListingsBelow info.price
      entry.buyMarketInfo.highestPrice (live.getPriceList .buy) .buy with
  | some reason =>
      have hheld : (BidTerms.of num ctx itemInfo entry price live info).Held := congrArg Option.isSome hdrop
      rw [if_pos hheld]
      rfl
  | none =>
      have hheld : ¬ (BidTerms.of num ctx itemInfo entry price live info).Held := by
        intro hheld
        cases (congrArg Option.isSome hdrop).symm.trans hheld
      rw [if_neg hheld]
      rfl

variable (ctx entry price live) in
theorem heldOffer_delete (hinfo : OperationSet.has info.operations "Delete" = false) :
    OperationSet.has (heldOffer ctx entry price live info).2 "Delete" = false := by
  rw [heldOffer]
  split
  next reason hdrop =>
    cases maxPriceDrop_of_applies hdrop
    split <;> simp [OperationSet.has_add, hinfo]
  next =>
    split <;> simp [OperationSet.has_add, hinfo]

theorem buyOffer_eq : buyOffer num ctx itemInfo entry price live info =
    let held := heldOffer ctx entry price live info
    let itemMaxPrice := ctx.settings.general.getItemMaxPrice itemInfo.wfmId
    let metric := num.asI64 (price.movingAvg.getD (num.ofInt 0)) - held.1
    let capped := if 0 < itemMaxPrice ∧ itemMaxPrice < held.1 then
        (itemMaxPrice, OperationSet.add held.2 "AboveMaxBuyPrice")
      else held
    ⟨capped.1, metric - 1, metric,
      if !isDisabled ctx.settings.wtb.avgPriceCap ∧ ctx.settings.wtb.avgPriceCap < capped.1 then
        OperationSet.add (OperationSet.add capped.2 "AboveAvgPrice") "Delete"
      else capped.2⟩ := rfl

variable (num ctx itemInfo entry price live info) in
/-- What a bid is offered at. -/
theorem buyOffer_price :
    (buyOffer num ctx itemInfo entry price live info).postPrice =
        (BidTerms.of num ctx itemInfo entry price live info).cappedPrice ∧
      (buyOffer num ctx itemInfo entry price live info).closedAvgMetric =
        (BidTerms.of num ctx itemInfo entry price live info).closedAvg -
          (BidTerms.of num ctx itemInfo entry price live info).heldPrice := by
  have hheld := heldOffer_price num ctx itemInfo entry price live info
  rw [buyOffer_eq]
  dsimp only
  rw [apply_ite Prod.fst, hheld]
  exact ⟨rfl, rfl⟩

theorem buyOffer_delete (hinfo : OperationSet.has info.operations "Delete" = false) :
    OperationSet.has (buyOffer num ctx itemInfo entry price live info).operations "Delete" = true ↔
      (BidTerms.of num ctx itemInfo entry price live info).AboveCap := by
  have hheld := heldOffer_delete ctx entry price live hinfo
  have hcapped := (buyOffer_price num ctx itemInfo entry price live info).1
  rw [buyOffer_eq] at hcapped ⊢
  dsimp only at hcapped ⊢
  rw [hcapped]
  have habove : (!isDisabled ctx.settings.wtb.avgPriceCap) = true ∧ ctx.settings.wtb.avgPriceCap <
      (BidTerms.of num ctx itemInfo entry price live info).cappedPrice ↔
        (BidTerms.of num ctx itemInfo entry price live info).AboveCap := by
    rw [Bool.not_eq_true']
    rfl
  by_cases h : (BidTerms.of num ctx itemInfo entry price live info).AboveCap
  · rw [if_pos (habove.mpr h)]
    simp [OperationSet.has_add, h]
  · rw [if_neg fun hcond => h (habove.mp hcond)]
    split <;> simp [OperationSet.has_add, hheld, h]

/-- The operations of a bid ask for its delete exactly where the rules do. -/
theorem judged_delete (hinfo : OperationSet.has info.operations "Delete" = false) :
    OperationSet.has ((buyOffer num ctx itemInfo entry price live info).judged ctx entry) "Delete" = true ↔
      (BidTerms.of num ctx itemInfo entry price live info).Overpriced ∨
        (BidTerms.of num ctx itemInfo entry price live info).Underpriced ∨
        (BidTerms.of num ctx itemInfo entry price live info).AboveCap := by
  rw [← buyOffer_delete hinfo, Offer.judged, (buyOffer_price num ctx itemInfo entry price live info).2]
  have hover : (BidTerms.of num ctx itemInfo entry price live info).Overpriced ↔
      (BidTerms.of num ctx itemInfo entry price live info).closedAvg -
        (BidTerms.of num ctx itemInfo entry price live info).heldPrice < 0 := Iff.rfl
  have hunder : (BidTerms.of num ctx itemInfo entry price live info).Underpriced ↔
      entry.buyMarketInfo.priceRange < ctx.settings.wtb.profitThreshold := Iff.rfl
  rw [hover, hunder]
  split_ifs <;> simp [OperationSet.has_add, *]

end Offer

/-! ### What a bid posts -/

section Bidding

variable {E F : Type} {num : PriceFloats F} {out : Outside E} {ctx : TradeContext F} {itemInfo : CacheTradableItem}
  {entry : ItemEntry} {price : ItemPriceInfo F} {live : LiveOrders} {route : Route} {slots : Slots}
  {w t start : World E}

theorem getOrderInfo_exec (w : World E) (entry : ItemEntry) (orderType : OrderType) (route : Route) :
    (getOrderInfo entry orderType route).exec w =
      (.ok (.of (foundOrder w entry orderType route)), w.looked w.ext entry orderType route) := rfl

theorem getOrderInfo_trail {P : Write → Prop} (entry : ItemEntry) (orderType : OrderType) (route : Route) :
    Keeps (Trail P start) (getOrderInfo entry orderType route) := fun w hw => hw.looked w.ext entry orderType route

/-- A delete of the entry's order sets no price. -/
theorem deleteOrder_trail {Good : Nat → Prop} (entry : ItemEntry) (orderType : OrderType) (route : Route)
    (reason : String) :
    Keeps (Trail (fun write => ∀ p, write.action.price = some p → Good p) start)
      (deleteOrder out.toOrdersOutside entry orderType route reason) := by
  refine (getOrderInfo_trail entry orderType route).bind fun info => .ite (fun _ => .pure ()) fun _ => ?_
  refine progressOrder_trail (permits_price fun hdelete => ?_) {}
  simp [OperationSet.ofList, OperationSet.has_add] at hdelete

/-- The write of a bid, once the knapsack has left it in. -/
def writeBid (num : PriceFloats F) (out : Outside E) (ctx : TradeContext F) (itemInfo : CacheTradableItem)
    (entry : ItemEntry) (price : ItemPriceInfo F) (live : LiveOrders) (route : Route) (slots : Slots)
    (info : OrderInfo) : TraderM E Unit :=
  let offer := buyOffer num ctx itemInfo entry price live info
  let operations := offer.judged ctx entry
  let properties := populateOrderProperties info.properties entry operations
  let properties := setOrderMarketMetrics properties offer.potentialProfit
  progressOrder out.toOrdersOutside entry route .buy (asU32 (max offer.postPrice 1)) (getPerTrade itemInfo) properties
    operations slots

theorem progressBuying_trail {Good : Nat → Prop}
    (h : OperationSet.has ((buyOffer num ctx itemInfo entry price live (.of (foundOrder w entry .buy route))).judged ctx
        entry) "Delete" = false →
      Good (asU32 (BidTerms.of num ctx itemInfo entry price live (.of (foundOrder w entry .buy route))).price)) :
    Trail (fun write => ∀ p, write.action.price = some p → Good p) w
      ((progressBuying num out ctx itemInfo entry price live route slots).exec w).2 := by
  have hposts : Keeps (Trail (fun write => ∀ p, write.action.price = some p → Good p) w)
      (writeBid num out ctx itemInfo entry price live route slots (.of (foundOrder w entry .buy route))) := by
    refine progressOrder_trail (permits_price fun hdelete => ?_) slots
    rw [(buyOffer_price num ctx itemInfo entry price live _).1]
    exact h hdelete
  show (progressBuying num out ctx itemInfo entry price live route slots).wp
    (fun _ t => Trail (fun write => ∀ p, write.action.price = some p → Good p) w t) w
  rw [progressBuying, wp_ite]
  refine ⟨fun _ => .refl w, fun _ => ?_⟩
  rw [wp_bind, wp, getOrderInfo_exec, next_ok]
  refine Keeps.ite (fun _ => deleteOrder_trail entry .buy route "NoMarket") (fun _ => ?_) _
    ((Trail.refl w).looked w.ext entry .buy route)
  refine (quiet_stockIsFull entry).trail.bind fun full => .ite (fun _ => deleteOrder_trail entry .buy route "MaxStock")
    fun _ => (Keeps.read _).bind fun orders => .ite (fun _ => .pure ()) fun _ => hposts

theorem highestPrice_fits (hbook : ∀ o ∈ live.buyOrders, o.order.platinum < 2 ^ 32) :
    0 ≤ live.highestPrice .buy ∧ live.highestPrice .buy < 2 ^ 32 := by
  rw [LiveOrders.highestPrice]
  cases hmax : (live.getPriceList .buy).max? with
  | none => exact ⟨le_refl _, by decide⟩
  | some highest =>
      obtain ⟨o, ho, rfl⟩ := List.mem_map.mp (List.max?_mem hmax)
      have hfits := hbook o ho
      rw [Option.getD_some]
      omega

/-- A bid on an item that has no order yet is created at the market's price, and only where the average bears it,
exactly where the drop guard does not hold the price of no order. The overpriced test of the source subtracts in `i64`,
which is the same for an average above -2^63 + 2^32. -/
theorem new_bid_price_iff (num : PriceFloats F) (out : Outside E) (ctx : TradeContext F) (itemInfo : CacheTradableItem)
    (entry : ItemEntry) (price : ItemPriceInfo F) (live : LiveOrders) (route : Route) (slots : Slots) (w : World E)
    (hbook : ∀ o ∈ live.buyOrders, o.order.platinum < 2 ^ 32)
    (hnone : foundOrder w entry .buy route = none) :
    Trail
      (fun write => ∀ p, write.action.price = some p →
        let terms := BidTerms.of num ctx itemInfo (entry.applyMarketInfo live) price live (.of none)
        ((p : Int) = terms.marketPrice ∧ terms.highestPrice ≤ terms.closedAvg ↔
          ¬ terms.Held ∨ (terms.marketPrice ≤ 1 ∧ terms.highestPrice ≤ terms.closedAvg)))
      w ((progressBuying num out ctx itemInfo (entry.applyMarketInfo live) price live route slots).exec w).2 := by
  have hfound : foundOrder w (entry.applyMarketInfo live) .buy route = none := hnone
  refine progressBuying_trail fun hdelete => ?_
  rw [hfound] at hdelete ⊢
  generalize hterms : BidTerms.of num ctx itemInfo (entry.applyMarketInfo live) price live (.of none) = terms
  have hkept : terms.heldPrice ≤ terms.closedAvg := by
    rw [← hterms]
    by_contra hover
    refine Bool.eq_false_iff.mp hdelete ((judged_delete rfl).mpr (.inl ?_))
    rw [BidTerms.Overpriced]
    omega
  have hcurrent : terms.currentOrderPrice = 0 := by rw [← hterms]; rfl
  have hhighest : 0 ≤ terms.highestPrice ∧ terms.highestPrice < 2 ^ 32 := by
    rw [← hterms]
    exact highestPrice_fits hbook
  have hmarket : 1 ≤ terms.marketPrice := le_max_left _ _
  by_cases hheld : terms.Held
  · obtain ⟨-, hprice⟩ := BidTerms.price_of_held terms hheld hcurrent
    have hone : ((asU32 1 : Nat) : Int) = 1 := rfl
    rw [hprice, hone]
    constructor
    · rintro ⟨heq, hbears⟩
      exact .inr ⟨heq ▸ le_refl _, hbears⟩
    · rintro (hfree | ⟨hle, hbears⟩)
      · exact absurd hheld hfree
      · exact ⟨le_antisymm hmarket hle, hbears⟩
  · have hprice := BidTerms.price_of_not_held terms hheld
    rw [BidTerms.heldPrice, if_neg hheld] at hkept
    have hfits : ((asU32 terms.price : Nat) : Int) = terms.marketPrice := by
      have hle : terms.marketPrice < 2 ^ 32 := by
        rw [BidTerms.marketPrice]
        split <;> omega
      rw [hprice, asU32]
      omega
    exact ⟨fun _ => .inl hheld, fun _ => ⟨hfits, hkept⟩⟩

end Bidding

namespace Samples

/-- The context of a bid under these limits. -/
def bidding (wtb : ItemWtbSettings) : TradeContext Int := .sample { Settings.plain with wtb := wtb } true

/-- A bid on the lens, which is worth `closedAvg`. -/
def bidLens (wtb : ItemWtbSettings) (closedAvg : Int) (orders : List Order) : Except Error Unit × World Nat :=
  (progressBuying .whole (.willing [] .spread) (bidding wtb) (itemNamed "lens")
    ((ItemEntry.bid "lens").applyMarketInfo .spread) ⟨some closedAvg, closedAvg, true, false⟩ .spread .live {}).exec
      (.holding orders)

def lensTerms (wtb : ItemWtbSettings) (closedAvg : Int) (info : OrderInfo) : BidTerms :=
  .of .whole (bidding wtb) (itemNamed "lens") ((ItemEntry.bid "lens").applyMarketInfo .spread)
    ⟨some closedAvg, closedAvg, true, false⟩ .spread info

/-- No limits but a drop of 5. -/
def dropOfFive : ItemWtbSettings := ⟨0, -1, -1, -1, 5, -1⟩

end Samples

open Samples

/-- Without limits the first bid on the lens is the highest one. -/
theorem new_bid_price_iff_lens :
    posted (bidLens Settings.plain.wtb 30 []).2.trace = [10] ∧
      (lensTerms Settings.plain.wtb 30 (.of none)).marketPrice = 10 := by
  have htrail := new_bid_price_iff .whole (.willing [] .spread) (bidding Settings.plain.wtb) (itemNamed "lens")
    (.bid "lens") ⟨some 30, 30, true, false⟩ .spread .live {} (.holding []) (by decide) rfl
  have hten := htrail.posted rfl 10 (by decide +kernel)
  exact ⟨by decide +kernel, (hten.mpr (.inl (by decide))).1.symm⟩

/-- With a drop of 5 the first bid is posted at 1, though the highest is 10 and the lens is worth 3. -/
theorem new_bid_held :
    posted (bidLens dropOfFive 3 []).2.trace = [1] ∧ (lensTerms dropOfFive 3 (.of none)).marketPrice = 10 ∧
      (lensTerms dropOfFive 3 (.of none)).closedAvg < (lensTerms dropOfFive 3 (.of none)).highestPrice := by
  decide +kernel

/-! ### When a bid goes -/

section Going

variable {E F : Type} {num : PriceFloats F} {out : Outside E} {ctx : TradeContext F} {itemInfo : CacheTradableItem}
  {entry : ItemEntry} {route : Route} {slots : Slots} {w t start : World E}

/-- Between these worlds the order of this id was deleted. -/
def Deletes (id : String) (w t : World E) : Prop :=
  ∃ steps write, t.trace = w.trace ++ steps ∧ Step.write write ∈ steps ∧ write.action = .delete id ∧
    write.succeeded = true

theorem Deletes.after {id : String} {P : Write → Prop} (h : Deletes id w t) (hearlier : Trail P start w) :
    Deletes id start t := by
  obtain ⟨steps, write, hsteps, hwrite⟩ := h
  obtain ⟨earlier, htrace, -⟩ := hearlier
  refine ⟨earlier ++ steps, write, ?_, List.mem_append_right _ hwrite.1, hwrite.2⟩
  rw [hsteps, htrace, List.append_assoc]

theorem Trail.not_deletes {id : String} (h : Trail (fun write => write.action ≠ .delete id) w t) :
    ¬ Deletes id w t := by
  obtain ⟨steps, htrace, hsteps⟩ := h
  rintro ⟨steps', write, htrace', hwrite, haction, -⟩
  rw [htrace] at htrace'
  cases List.append_cancel_left htrace'
  exact hsteps write hwrite haction

theorem liveClient_deletes {β : Type} {id : String} {f : OrderRoute → TraderM E β}
    (hf : ∀ client, (f client).wp (fun r t => (∃ a, r = .ok a) → Deletes id w t) w) :
    (liveClient (.delete id) >>= f).wp (fun r t => (∃ a, r = .ok a) → Deletes id w t) w := by
  rw [wp_bind, liveClient, wp_bind, wp_read, next_ok]
  split
  · exact hf _
  · rintro ⟨a, ha⟩
    cases ha

/-- A delete that ends well has deleted. -/
theorem delete_deletes (out : OrdersOutside E) (id : String) (w : World E) :
    (delete out id).wp (fun r t => (∃ a, r = .ok a) → Deletes id w t) w := by
  rw [delete, wp_bind, wp_read, next_ok, wp_ite]
  refine ⟨fun _ _ => ⟨_, _, rfl, List.mem_singleton_self _, rfl, rfl⟩, fun _ => ?_⟩
  refine liveClient_deletes fun client => ?_
  rw [wp_bind, wp_read, next_ok, wp_bind, ask, wp_act, next_ok]
  cases (out.delete id w.ext).1 with
  | ok deleted => exact fun _ => ⟨_, _, rfl, List.mem_singleton_self _, rfl, rfl⟩
  | error e =>
      refine wp_mono (finishLive_fails out (.delete id) "Delete" "delete" true e w.orders _) fun r u hfails => ?_
      rintro ⟨a, ha⟩
      exact absurd ha (hfails a)

variable {orderType : OrderType} {postPrice : Nat} {perTrade : Option Int} {properties : Properties}
  {operations : OperationSet}

/-- With these operations an entry does nothing but delete the order it found. -/
theorem progressOrder_deletes {out : OrdersOutside E} (hcreate : OperationSet.has operations "Create" = false)
    (hupdate : OperationSet.has operations "Update" = true) (hdelete : OperationSet.has operations "Delete" = true) :
    (progressOrder out entry route orderType postPrice perTrade properties operations slots).wp
      (fun r t => r = .ok () → Deletes (properties.id.getD "") w t) w := by
  rw [progressOrder, wp_bind, wp_read, next_ok]
  simp only [hcreate, hdelete, Bool.false_and, Bool.false_eq_true, if_false]
  show wp (writeOrder out entry route orderType postPrice perTrade properties operations _) _ w
  simp only [writeOrder, hcreate, hupdate, hdelete, Bool.false_and, Bool.not_true, Bool.and_false,
    Bool.and_self, Bool.false_eq_true, if_false, if_true]
  rw [wp_bind]
  refine wp_mono (delete_deletes out _ w) fun r t ht => ?_
  cases r with
  | ok a => exact fun _ => ht ⟨a, rfl⟩
  | error e => exact fun h => by cases h

/-- Whether the stock row is full, where it can be read. -/
def stockAnswer (out : Outside E) (ctx : TradeContext F) (entry : ItemEntry) (ext : E) : Except Error Bool :=
  if isDisabled ctx.settings.wtb.maxStockQuantity = true then .ok false
  else match entry.stockId with
    | none => .ok false
    | some id => (out.stockItem id ext).1.map fun row =>
        row.any fun s => decide (ctx.settings.wtb.maxStockQuantity ≤ s.owned)

theorem stockIsFull_wp (out : Outside E) (ctx : TradeContext F) (entry : ItemEntry) (w : World E) :
    (stockIsFull out ctx entry).wp
      (fun r t => r = stockAnswer out ctx entry w.ext ∧ t.orders = w.orders ∧ t.trace = w.trace) w := by
  have hkeeps : Quiet (stockIsFull out ctx entry) := quiet_stockIsFull entry
  have hquiet := hkeeps (fun desk => (desk none).orders = w.orders ∧ (desk none).trace = w.trace) w ⟨rfl, rfl⟩
  refine wp_and ?_ hquiet
  rw [stockIsFull, stockAnswer]
  by_cases hdisabled : isDisabled ctx.settings.wtb.maxStockQuantity = true
  · rw [if_pos hdisabled, hdisabled, Bool.not_true, Bool.false_and, if_neg Bool.false_ne_true, wp_pure]
  · rw [if_neg hdisabled, Bool.eq_false_iff.mpr hdisabled, Bool.not_false, Bool.true_and]
    cases hid : entry.stockId with
    | none => rw [Option.isSome_none, if_neg Bool.false_ne_true, wp_pure]
    | some id =>
        rw [Option.isSome_some, if_pos rfl, getStockItem, hid, wp_bind]
        dsimp only
        rw [demand, wp_bind, ask, wp_act, next_ok]
        cases (out.stockItem id w.ext).1 with
        | ok row => cases row <;> rfl
        | error e => rfl

/-- Whether the workflow reaches the judgement of a bid with what the rules say. -/
def BidTerms.Reached (b : BidTerms) (num : PriceFloats F) (out : Outside E) (ctx : TradeContext F)
    (itemInfo : CacheTradableItem) (entry : ItemEntry) (o : Order) (w : World E) : Prop :=
  match stockAnswer out ctx entry w.ext with
  | .error _ => False
  | .ok true => o.id ≠ ""
  | .ok false =>
      (isDisabled ctx.settings.wtb.maxTotalPriceCap = true ∨
        chosen num ctx.settings.wtb.maxTotalPriceCap itemInfo.wfmId b.cappedPrice (b.closedAvg - b.heldPrice - 1)
          w.orders.cacheOrders = true) ∧
      (1 ≤ b.cappedPrice ∨ b.Overpriced ∨ b.Underpriced)

/-- Without a delete in its operations, the write of an entry deletes nothing. -/
theorem permits_no_delete {id : String} (hdelete : OperationSet.has operations "Delete" = false) {postPrice : Nat} :
    Permits (fun write => write.action ≠ .delete id) entry route .buy postPrice perTrade properties operations where
  create _ _ write hwrite h := by
    cases hwrite.symm.trans h
  update _ write hwrite h := by
    rcases hwrite with hwrite | hwrite
    · cases hwrite.symm.trans h
    · cases hwrite.symm.trans h
  delete write _ _ hside := by
    rcases hside with hsell | hside
    · cases hsell
    · cases hdelete.symm.trans hside
  refresh write hwrite h := by
    cases hwrite.symm.trans h

variable {o : Order}

theorem deleteOrder_deletes (hfound : foundOrder w entry .buy route = some o) {reason : String}
    (hcreate : reason ≠ "Create") (hstart : Trail (fun write => write.action ≠ .delete o.id) start w) :
    (deleteOrder out.toOrdersOutside entry .buy route reason).wp
      (fun r t => r = .ok () → (Deletes o.id start t ↔ o.id ≠ "")) w := by
  rw [deleteOrder, wp_bind, wp, getOrderInfo_exec, next_ok, hfound, wp_ite]
  have hlooked := hstart.looked w.ext entry .buy route
  refine ⟨fun hempty _ => iff_of_false hlooked.not_deletes fun hid => hid hempty, fun hid => ?_⟩
  refine wp_mono (progressOrder_deletes ?_ ?_ ?_) fun r t ht hr => iff_of_true ((ht hr).after hlooked) hid
  · simp [OperationSet.ofList, OperationSet.has_add, hcreate]
  · simp [OperationSet.ofList, OperationSet.has_add]
  · simp [OperationSet.ofList, OperationSet.has_add]

/-- The write of a bid on the order it found deletes that order exactly where its judgement says so. -/
theorem writeBid_deletes {price : ItemPriceInfo F} {live : LiveOrders}
    (hstart : Trail (fun write => write.action ≠ .delete o.id) start w) :
    (writeBid num out ctx itemInfo entry price live route slots (.of (some o))).wp
      (fun r t => r = .ok () →
        (Deletes o.id start t ↔
          (BidTerms.of num ctx itemInfo entry price live (.of (some o))).Overpriced ∨
            (BidTerms.of num ctx itemInfo entry price live (.of (some o))).Underpriced ∨
            (BidTerms.of num ctx itemInfo entry price live (.of (some o))).AboveCap)) w := by
  have hjudged : OperationSet.has ((buyOffer num ctx itemInfo entry price live (.of (some o))).judged ctx entry)
      "Delete" = true ↔ _ := judged_delete rfl
  rw [← hjudged, writeBid]
  generalize hoffer : buyOffer num ctx itemInfo entry price live (.of (some o)) = offer
  by_cases hdelete : OperationSet.has (offer.judged ctx entry) "Delete" = true
  · have hkept (operation : String) (hop : operation = "Create" ∨ operation = "Update") :
        OperationSet.has (offer.judged ctx entry) operation = OperationSet.has ["Update"] operation := by
      rw [← hoffer]
      exact buyOffer_has hop itemInfo entry price live (.of (some o))
    have hcreate : OperationSet.has (offer.judged ctx entry) "Create" = false := hkept "Create" (.inl rfl)
    have hupdate : OperationSet.has (offer.judged ctx entry) "Update" = true := hkept "Update" (.inr rfl)
    exact wp_mono (progressOrder_deletes hcreate hupdate hdelete) fun r t ht hr =>
      iff_of_true ((ht hr).after hstart) hdelete
  · exact wp_mono (progressOrder_trail (permits_no_delete (Bool.eq_false_iff.mpr hdelete)) slots w hstart)
      fun r t ht _ => iff_of_false ht.not_deletes hdelete

/-- A bid that must go is deleted exactly where no early end comes before its judgement. No write fails: only the stock
row may be unreadable. -/
theorem due_bid_deleted_iff (num : PriceFloats F) (out : Outside E) (ctx : TradeContext F)
    (itemInfo : CacheTradableItem) (entry : ItemEntry) (price : ItemPriceInfo F) (live : LiveOrders) (route : Route)
    (slots : Slots) (w t : World E) (r : Except Error Unit) (o : Order)
    (hallowed : isBlacklisted ctx.settings itemInfo entry .buy = false)
    (hfound : foundOrder w entry .buy route = some o) (hbids : live.buyOrders ≠ []) (hasks : live.sellOrders ≠ [])
    (hdue : (BidTerms.of num ctx itemInfo (entry.applyMarketInfo live) price live (.of (some o))).Due)
    (hrun : (progressBuying num out ctx itemInfo (entry.applyMarketInfo live) price live route slots).exec w = (r, t))
    (hwrites : ∀ e, r = .error e → stockAnswer out ctx entry w.ext = .error e) :
    Deletes o.id w t ↔
      (BidTerms.of num ctx itemInfo (entry.applyMarketInfo live) price live (.of (some o))).Reached num out ctx itemInfo
        entry o w := by
  have hfound' : foundOrder w (entry.applyMarketInfo live) .buy route = some o := hfound
  have hvolumes : ¬ ((entry.applyMarketInfo live).buyMarketInfo.volume = 0 ∨
      (entry.applyMarketInfo live).sellMarketInfo.volume = 0) := by
    have hbid : (entry.applyMarketInfo live).buyMarketInfo.volume = live.buyOrders.length := List.length_map _
    have hask : (entry.applyMarketInfo live).sellMarketInfo.volume = live.sellOrders.length := List.length_map _
    rw [hbid, hask, List.length_eq_zero_iff, List.length_eq_zero_iff]
    exact fun h => h.elim hbids hasks
  refine exec_of_wp
    (Q := fun r t => (∀ e, r = .error e → stockAnswer out ctx entry w.ext = .error e) → (Deletes o.id w t ↔ _)) ?_ hrun
    hwrites
  rw [progressBuying, wp_ite]
  have hpassed : ¬ isBlacklisted ctx.settings itemInfo (entry.applyMarketInfo live) .buy = true :=
    Bool.eq_false_iff.mp hallowed
  refine ⟨fun h => absurd h hpassed, fun _ => ?_⟩
  rw [wp_bind, wp, getOrderInfo_exec, hfound', next_ok, if_neg hvolumes, wp_bind]
  refine wp_mono (stockIsFull_wp out ctx (entry.applyMarketInfo live) _) fun r u hread => ?_
  obtain ⟨hanswer, horders, htrace⟩ := hread
  have hanswer : r = stockAnswer out ctx entry w.ext := hanswer
  have htrace : u.trace = (w.looked w.ext (entry.applyMarketInfo live) .buy route).trace ++ [] := by
    rw [htrace, List.append_nil]
  have hstart : Trail (fun write => write.action ≠ .delete o.id) w u :=
    ((Trail.refl w).looked w.ext (entry.applyMarketInfo live) .buy route).append htrace fun write hwrite =>
      absurd hwrite List.not_mem_nil
  rw [BidTerms.Reached, ← hanswer]
  cases r with
  | error e =>
      rw [next_error]
      exact fun _ => iff_of_false hstart.not_deletes id
  | ok full =>
      have hfoundu : foundOrder u (entry.applyMarketInfo live) .buy route = some o := by
        rw [foundOrder, horders]
        exact hfound
      have hends (r : Except Error Unit) (hfails : ∀ e, r = .error e → (.ok full : Except Error Bool) = .error e) :
          r = .ok () := by
        cases r with
        | ok => rfl
        | error e => cases hfails e rfl
      rw [next_ok, wp_ite]
      cases full with
      | true =>
          refine ⟨fun _ => ?_, fun h => absurd rfl h⟩
          exact wp_mono (deleteOrder_deletes hfoundu (by decide) hstart) fun r t ht hfails => ht (hends r hfails)
      | false =>
          refine ⟨fun h => absurd h Bool.false_ne_true, fun _ => ?_⟩
          obtain ⟨hcapped, hmetric⟩ :=
            buyOffer_price num ctx itemInfo (entry.applyMarketInfo live) price live (.of (some o))
          have hprofit (offer : Offer) (h : offer = buyOffer num ctx itemInfo (entry.applyMarketInfo live) price live
              (.of (some o))) : offer.potentialProfit = offer.closedAvgMetric - 1 := h ▸ rfl
          rw [wp_bind, wp_read, next_ok, wp_ite, horders]
          refine ⟨fun hleft _ => ?_, fun hkept => wp_mono (writeBid_deletes hstart) fun r t ht hfails =>
            (ht (hends r hfails)).trans ?_⟩
          · rw [hprofit _ rfl, hmetric, hcapped, Bool.and_eq_true, Bool.not_eq_true', Bool.not_eq_true'] at hleft
            refine iff_of_false hstart.not_deletes ?_
            rintro ⟨hdisabled | hchosen, -⟩
            · cases hleft.1.symm.trans hdisabled
            · cases hleft.2.symm.trans hchosen
          · rw [hprofit _ rfl, hmetric, hcapped] at hkept
            have hleft := not_and_or.mp fun h => hkept (Bool.and_eq_true_iff.mpr h)
            rw [Bool.not_eq_true', Bool.not_eq_true', Bool.not_eq_false, Bool.not_eq_false] at hleft
            exact hdue.judged_iff.trans (and_iff_right hleft).symm

end Going

namespace Samples

/-- A bid of this id at this price, with the profit it hopes for. -/
def standingBid (id itemId : String) (platinum : Nat) (profit : Int) : Order :=
  { simulatedOrder "" ⟨itemId, .buy, platinum, 1, true, none, none, none⟩ with
    id := id, properties := { Properties.default with potentialProfit := some profit } }

/-- A bid on the lens, and one that is more profitable. -/
def twoBids : List Order := [standingBid "bid" "lens" 80 5, standingBid "other" "prism" 60 40]

def Step.isWrite : Step → Bool
  | .write _ => true
  | .lookup .. | .turn _ | .blocked .. => false

/-- No limits but 100 for all bids together. -/
def capOfHundred : ItemWtbSettings := ⟨0, -1, 100, -1, -1, -1⟩

end Samples

/-- At an average of 5 the bid on the lens goes. -/
theorem due_bid_deleted_iff_lens :
    Deletes "bid" (.holding [standingBid "bid" "lens" 80 5])
      (bidLens Settings.plain.wtb 5 [standingBid "bid" "lens" 80 5]).2 :=
  (due_bid_deleted_iff .whole (.willing [] .spread) (bidding Settings.plain.wtb) (itemNamed "lens") (.bid "lens")
    ⟨some 5, 5, true, false⟩ .spread .live {} (.holding [standingBid "bid" "lens" 80 5]) _ (.ok ())
    (standingBid "bid" "lens" 80 5) (by decide) (by decide) (by decide) (by decide) (.inl (by decide)) (exec_eq rfl)
    nofun).mpr
      ⟨.inl (by decide), .inl (by decide)⟩

/-- With a more profitable bid under the same cap the bid on the lens stays, at the same average. -/
theorem due_bid_left :
    (lensTerms capOfHundred 5 (.of (some (standingBid "bid" "lens" 80 5)))).Due ∧
      (bidLens capOfHundred 5 twoBids).1.isOk = true ∧
      ¬ Deletes "bid" (.holding twoBids) (bidLens capOfHundred 5 twoBids).2 := by
  refine ⟨.inl (by decide), by decide +kernel, ?_⟩
  have hlooked : (bidLens capOfHundred 5 twoBids).2.trace.all (fun step => !Step.isWrite step) = true := by
    decide +kernel
  rintro ⟨steps, write, htrace, hwrite, -⟩
  rw [htrace] at hlooked
  cases List.all_eq_true.mp hlooked _ (List.mem_append_right _ hwrite)

end Quantframe.Trader
