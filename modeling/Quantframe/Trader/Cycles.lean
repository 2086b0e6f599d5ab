import Quantframe.Trader.Moves

/-!
# Every cycle is made of moves

Between its looks and its writes a cycle leaves the orders alone. The operations of an entry keep what its
look found.
-/

namespace Quantframe.Trader

open Lib Lib.Effect Market
open Handlers (OperationSet)
open Trades (Error)

/-! ### Programs that leave the orders alone -/

section Quiet

variable {E α β : Type} {m : TraderM E α} {f : α → TraderM E β}

def Quiet (m : TraderM E α) : Prop :=
  ∀ I : (Option Look → Desk) → Prop, Keeps (fun w => I w.desk) m

theorem Quiet.pure (a : α) : Quiet (pure a : TraderM E α) := fun _ => .pure a

theorem Quiet.fail (e : Error) : Quiet (Effect.fail e : TraderM E α) := fun _ => .fail e

theorem Quiet.bind (hm : Quiet m) (hf : ∀ a, Quiet (f a)) : Quiet (m >>= f) :=
  fun I => (hm I).bind fun a => hf a I

theorem quiet_ask (q : E → α × E) : Quiet (ask q) := fun _ => .act fun _ h => h

theorem quiet_demand (q : E → Except Error α × E) : Quiet (demand q) := by
  refine (quiet_ask q).bind fun answer => ?_
  cases answer with
  | ok a => exact .pure a
  | error e => exact .fail e

theorem Quiet.at {out : OrdersOutside E} {d : Desk} {p : Option Bool} {g : Bool} {looked : Option Look}
    {w : World E} (hm : Quiet m) (h : At out d p g looked w) : m.wp (fun _ t => At out d p g looked t) w :=
  wp_mono
    (hm (fun desk => Moves out d (desk looked) ∧ (desk looked).processing = p ∧
      (desk looked).orders.globalDryRun = g) w ⟨h.moves, h.processing, h.dryRun⟩)
    fun _ _ ht => ⟨ht.1, ht.2.1, ht.2.2⟩

variable {F : Type} {out : Outside E} {ctx : TradeContext F}

theorem quiet_getStockItem (entry : ItemEntry) : Quiet (getStockItem out entry) := by
  rw [getStockItem]
  cases entry.stockId with
  | none => exact .fail _
  | some id => exact quiet_demand _

theorem quiet_getWishListItem (entry : ItemEntry) : Quiet (getWishListItem out entry) := by
  rw [getWishListItem]
  cases entry.wishListId with
  | none => exact .fail _
  | some id => exact quiet_demand _

theorem quiet_stockIsFull (entry : ItemEntry) : Quiet (stockIsFull out ctx entry) := by
  rw [stockIsFull]
  split
  · exact (quiet_getStockItem entry).bind fun item => .pure _
  · exact .pure false

theorem quiet_finalizeStockItem (stockItem : StockItem) : Quiet (finalizeStockItem out stockItem) := by
  rw [finalizeStockItem]
  split
  · exact quiet_demand _
  · exact .pure ()

theorem quiet_finalizeWishListItem (item : WishListItem) : Quiet (finalizeWishListItem out item) := by
  rw [finalizeWishListItem]
  split
  · exact quiet_demand _
  · exact .pure ()

end Quiet

/-! ### The operations of an entry -/

section Operations

variable {F : Type} {num : PriceFloats F} {ctx : TradeContext F} {operation : String}

theorem maxPriceDrop_of_applies {maxPriceDrop minListingsBelow current post : Int} {prices : List Int}
    {orderType : OrderType} {reason : String}
    (h : shouldApplyMaxPriceDrop maxPriceDrop minListingsBelow current post prices orderType = some reason) :
    reason = "MaxPriceDrop" := by
  unfold shouldApplyMaxPriceDrop at h
  cases orderType <;> grind

theorem buyOffer_has (hop : operation = "Create" ∨ operation = "Update") (itemInfo : CacheTradableItem)
    (entry : ItemEntry) (price : ItemPriceInfo F) (live : LiveOrders) (info : OrderInfo) :
    OperationSet.has ((buyOffer num ctx itemInfo entry price live info).judged ctx entry) operation =
      OperationSet.has info.operations operation := by
  unfold Offer.judged buyOffer
  cases hdrop : shouldApplyMaxPriceDrop ctx.settings.wtb.maxPriceDrop ctx.settings.wtb.minListingsBelow
      info.price entry.buyMarketInfo.highestPrice (live.getPriceList .buy) .buy with
  | none => rcases hop with rfl | rfl <;> simp only [hdrop] <;> split_ifs <;> simp [OperationSet.has_add]
  | some reason =>
      cases maxPriceDrop_of_applies hdrop
      rcases hop with rfl | rfl <;> simp only [hdrop] <;> split_ifs <;> simp [OperationSet.has_add]

theorem wishOffer_has (hop : operation = "Create" ∨ operation = "Update") (entry : ItemEntry)
    (price : ItemPriceInfo F) (info : OrderInfo) (item : WishListItem) :
    OperationSet.has (wishOffer num entry price info item).operations operation =
      OperationSet.has info.operations operation := by
  unfold wishOffer
  rcases hop with rfl | rfl <;> simp only [] <;> split_ifs <;> simp [OperationSet.has_add]

namespace SellDraft

variable (hop : operation = "Create" ∨ operation = "Update") (s : SellDraft)

include hop

theorem hide_has : OperationSet.has s.hide.operations operation = OperationSet.has s.operations operation := by
  unfold hide
  rcases hop with rfl | rfl <;> split_ifs <;> simp [OperationSet.has_add]

theorem readMarket_has (market : ItemMarketInfo) (minPrice : Option Int) :
    OperationSet.has (s.readMarket market minPrice).operations operation =
      OperationSet.has s.operations operation := by
  unfold readMarket
  rcases hop with rfl | rfl <;> split_ifs <;> simp [OperationSet.has_add]

theorem raiseToMinimum_has (minPrice : Option Int) :
    OperationSet.has (s.raiseToMinimum minPrice).operations operation =
      OperationSet.has s.operations operation := by
  cases minPrice with
  | none => rfl
  | some minPrice =>
      simp only [raiseToMinimum]
      rcases hop with rfl | rfl <;> split_ifs <;> simp [OperationSet.has_add]

theorem holdPrice_has (wts : ItemWtsSettings) (currentOrderPrice : Int) (prices : List Int) :
    OperationSet.has (s.holdPrice wts currentOrderPrice prices).operations operation =
      OperationSet.has s.operations operation := by
  unfold holdPrice
  split
  next reason hdrop =>
    cases maxPriceDrop_of_applies hdrop
    rcases hop with rfl | rfl <;> simp [OperationSet.has_add]
  next => rfl

theorem limitSma_has (minimumSma closedAvg boughtPrice : Int) :
    OperationSet.has (s.limitSma minimumSma closedAvg boughtPrice).operations operation =
      OperationSet.has s.operations operation := by
  unfold limitSma
  rcases hop with rfl | rfl <;> split_ifs <;> simp [OperationSet.has_add]

theorem wantProfit_has (minimumProfit boughtPrice : Int) :
    OperationSet.has (s.wantProfit minimumProfit boughtPrice).operations operation =
      OperationSet.has s.operations operation := by
  unfold wantProfit
  rcases hop with rfl | rfl <;> simp only [] <;> split_ifs <;> simp [OperationSet.has_add]

end SellDraft

theorem sellOffer_has (hop : operation = "Create" ∨ operation = "Update") (entry : ItemEntry)
    (price : ItemPriceInfo F) (live : LiveOrders) (info : OrderInfo) (stockItem : StockItem) :
    OperationSet.has (sellOffer num ctx entry price live info stockItem).operations operation =
      OperationSet.has info.operations operation := by
  simp only [sellOffer, SellDraft.wantProfit_has hop, SellDraft.limitSma_has hop, SellDraft.holdPrice_has hop,
    SellDraft.raiseToMinimum_has hop, SellDraft.readMarket_has hop, SellDraft.hide_has hop]
  rcases hop with rfl | rfl <;> split_ifs <;> simp [OperationSet.has_add]

theorem Answers.of_has {found : Option Order} {properties : Properties} {operations : OperationSet}
    (hid : properties.id.getD "" = (OrderInfo.of found).orderId)
    (hhas : ∀ operation, operation = "Create" ∨ operation = "Update" →
      OperationSet.has operations operation = OperationSet.has (OrderInfo.of found).operations operation) :
    Answers found properties operations where
  id := hid
  create := by
    rw [hhas _ (.inl rfl)]
    cases found <;> rfl
  update := by
    rw [hhas _ (.inr rfl)]
    cases found <;> rfl

theorem orderInfo_id (found : Option Order) :
    (OrderInfo.of found).properties.id.getD "" = (OrderInfo.of found).orderId := by
  cases found <;> rfl

end Operations

/-! ### The workflows of an entry -/

section Workflows

variable {E F : Type} {num : PriceFloats F} {out : Outside E} {ctx : TradeContext F} {d : Desk} {g warm : Bool}

/-- The moves from a desk lead here, while an entry with this warm flag is in process. -/
def Within (out : OrdersOutside E) (d : Desk) (warm g : Bool) (w : World E) : Prop :=
  ∃ looked, At out d (some warm) g looked w

theorem Quiet.within {α : Type} {m : TraderM E α} (hm : Quiet m) : Keeps (Within out.toOrdersOutside d warm g) m := by
  rintro w ⟨looked, h⟩
  exact wp_mono (hm.at h) fun _ _ ht => ⟨looked, ht⟩

/-- An entry looks, and goes on with what it found. -/
theorem keeps_getOrderInfo {α : Type} {f : OrderInfo → TraderM E α} (entry : ItemEntry) (orderType : OrderType)
    (hf : ∀ found w,
      At out.toOrdersOutside d (some warm) g (some (entry.look orderType (routeFor g warm) found)) w →
        (f (.of found)).wp (fun _ t => Within out.toOrdersOutside d warm g t) w) :
    Keeps (Within out.toOrdersOutside d warm g) (getOrderInfo entry orderType (routeFor g warm) >>= f) := by
  rintro w ⟨looked, h⟩
  rw [wp_bind]
  refine wp_mono (getOrderInfo_at h entry orderType) ?_
  rintro r t ⟨found, rfl, ht⟩
  exact hf found t ht

theorem deleteOrder_keeps (entry : ItemEntry) (orderType : OrderType) {reason : String}
    (hreason : reason ≠ "Create") :
    Keeps (Within out.toOrdersOutside d warm g)
      (deleteOrder out.toOrdersOutside entry orderType (routeFor g warm) reason) := by
  refine keeps_getOrderInfo entry orderType fun found w h => ?_
  rw [wp_ite]
  refine ⟨fun _ => ⟨_, h⟩, fun hid => ?_⟩
  cases found with
  | none => exact absurd rfl hid
  | some o =>
      refine progressOrder_at entry orderType _ 1 none {} ⟨orderInfo_id _, ?_, ?_⟩ h
      · simp [OperationSet.ofList, OperationSet.has_add, hreason]
      · simp [OperationSet.ofList, OperationSet.has_add]

theorem progressBuying_keeps (itemInfo : CacheTradableItem) (entry : ItemEntry) (price : ItemPriceInfo F)
    (live : LiveOrders) (slots : Slots) :
    Keeps (Within out.toOrdersOutside d warm g)
      (progressBuying num out ctx itemInfo entry price live (routeFor g warm) slots) := by
  rw [progressBuying]
  refine .ite (fun _ => .pure ()) fun _ => keeps_getOrderInfo entry .buy fun found w h => ?_
  rw [wp_ite]
  refine ⟨fun _ => deleteOrder_keeps entry .buy (by decide) w ⟨_, h⟩, fun _ => ?_⟩
  refine wp_seq ((quiet_stockIsFull entry).at h) (fun isFull t ht => ?_) fun _ t ht => ⟨_, ht⟩
  rw [wp_ite]
  refine ⟨fun _ => deleteOrder_keeps entry .buy (by decide) t ⟨_, ht⟩, fun _ => ?_⟩
  rw [wp_bind, wp_read, next_ok, wp_ite]
  refine ⟨fun _ => ⟨_, ht⟩, fun _ => ?_⟩
  exact progressOrder_at entry .buy _ _ _ slots
    (.of_has (orderInfo_id found) fun operation hop => buyOffer_has hop itemInfo entry price live _) ht

theorem progressSelling_keeps (itemInfo : CacheTradableItem) (entry : ItemEntry) (price : ItemPriceInfo F)
    (live : LiveOrders) (slots : Slots) :
    Keeps (Within out.toOrdersOutside d warm g)
      (progressSelling num out ctx itemInfo entry price live (routeFor g warm) slots) := by
  rw [progressSelling]
  refine .ite (fun _ => .pure ()) fun _ => (quiet_getStockItem entry).within.bind fun row => ?_
  cases row with
  | none => exact .pure ()
  | some stockItem =>
      refine keeps_getOrderInfo entry .sell fun found w h => ?_
      rw [wp_ite]
      refine ⟨fun _ => ⟨_, h⟩, fun _ => ?_⟩
      exact wp_seq (progressOrder_at entry .sell _ _ _ slots
          (.of_has (orderInfo_id found) fun operation hop => sellOffer_has hop entry price live _ stockItem) h)
        (fun _ t ht => (quiet_finalizeStockItem _).within t ht) fun _ _ ht => ht

theorem progressWishList_keeps (itemInfo : CacheTradableItem) (entry : ItemEntry) (price : ItemPriceInfo F)
    (slots : Slots) :
    Keeps (Within out.toOrdersOutside d warm g)
      (progressWishList num out ctx itemInfo entry price (routeFor g warm) slots) := by
  rw [progressWishList]
  refine .ite (fun _ => .pure ()) fun _ => (quiet_getWishListItem entry).within.bind fun row => ?_
  cases row with
  | none => exact .pure ()
  | some item =>
      refine keeps_getOrderInfo entry .buy fun found w h => ?_
      rw [wp_ite]
      refine ⟨fun _ => ⟨_, h⟩, fun _ => ?_⟩
      exact wp_seq (progressOrder_at entry .buy _ _ _ slots
          (.of_has (orderInfo_id found) fun operation hop => wishOffer_has hop entry price _ item) h)
        (fun _ t ht => (quiet_finalizeWishListItem _).within t ht) fun _ _ ht => ht

theorem progressEntry_keeps (itemInfo : CacheTradableItem) (entry : ItemEntry) (price : ItemPriceInfo F)
    (live : LiveOrders) (slots : Slots) :
    Keeps (Within out.toOrdersOutside d warm g)
      (progressEntry num out ctx itemInfo entry price live (routeFor g warm) slots) := by
  have hsell : Keeps (Within out.toOrdersOutside d warm g)
      (if OperationSet.has entry.operations "Sell" && entry.stockId.isSome then
        progressSelling num out ctx itemInfo entry price live (routeFor g warm) slots else pure ()) :=
    .ite (fun _ => progressSelling_keeps itemInfo entry price live slots) fun _ => .pure ()
  have hwish : Keeps (Within out.toOrdersOutside d warm g) (do
      progressWishList num out ctx itemInfo entry price (routeFor g warm) slots
      if OperationSet.has entry.operations "Sell" && entry.stockId.isSome then
        progressSelling num out ctx itemInfo entry price live (routeFor g warm) slots
      else pure ()) :=
    (progressWishList_keeps itemInfo entry price slots).bind fun _ => hsell
  unfold progressEntry
  refine .ite (fun _ => ?_) fun _ => .ite (fun _ => hwish) fun _ => hsell
  exact (progressBuying_keeps itemInfo entry price live slots).bind fun _ =>
    .ite (fun _ => hwish) fun _ => hsell

end Workflows

/-! ### The cycle -/

section Cycle

variable {E F : Type} {num : PriceFloats F} {out : Outside E} {ctx : TradeContext F} {d : Desk} {g : Bool}

/-- The moves from a desk lead here, whatever is in process. -/
def Reached (out : OrdersOutside E) (d : Desk) (g : Bool) (w : World E) : Prop :=
  ∃ p looked, At out d p g looked w

theorem Within.reached {out : OrdersOutside E} {warm : Bool} {w : World E} (h : Within out d warm g w) : Reached out d g w :=
  ⟨_, h⟩

theorem Quiet.reached {α : Type} {m : TraderM E α} (hm : Quiet m) : Keeps (Reached out.toOrdersOutside d g) m := by
  rintro w ⟨p, looked, h⟩
  exact wp_mono (hm.at h) fun _ _ ht => ⟨p, looked, ht⟩

theorem At.turned {out : OrdersOutside E} {p : Option Bool} {looked : Option Look} {w : World E}
    (h : At out d p g looked w) (entry : Option Bool) :
    At out d entry g none { w with processing := entry } where
  moves := h.moves.tail (.turn (w.desk looked) entry)
  processing := rfl
  dryRun := h.dryRun

theorem At.turnedTo {out : OrdersOutside E} {p : Option Bool} {looked : Option Look} {w : World E}
    (h : At out d p g looked w) (entry : ItemEntry) (warm : Bool) :
    At out d (some warm) g none { w with processing := some warm, trace := w.trace ++ [.turn entry] } where
  moves := h.moves.tail (.turnTo (w.desk looked) entry warm)
  processing := rfl
  dryRun := h.dryRun

theorem setProcessing_reached (entry : Option Bool) :
    Keeps (Reached out.toOrdersOutside d g) (setProcessing entry : TraderM E Unit) := by
  rintro w ⟨p, looked, h⟩
  exact ⟨entry, none, h.turned entry⟩

theorem tryDelete_reached (orderId : String) : Keeps (Reached out.toOrdersOutside d g) (tryDelete out orderId) := by
  have hdelete : Keeps (Reached out.toOrdersOutside d g) (delete out.toOrdersOutside orderId) := by
    rintro w ⟨p, looked, h⟩
    exact wp_mono (delete_at h orderId) fun _ _ ht => ⟨p, _, ht⟩
  exact hdelete.attempt.bind fun _ => .pure ()

theorem shouldStop_quiet : Quiet (shouldStop out ctx) := (quiet_ask _).bind fun _ => .pure _

theorem processEntry_reached (slots : Slots) (entry : ItemEntry) :
    Keeps (Reached out.toOrdersOutside d g) (processEntry num out ctx slots entry) := by
  rw [processEntry]
  cases ctx.tradable entry.wfmUrl with
  | none => exact .pure ()
  | some itemInfo =>
      rintro w ⟨p, looked, h⟩
      dsimp only
      rw [wp_bind, wp_read, next_ok, h.dryRun, turnTo, wp_bind, wp_change, next_ok]
      refine wp_seq ((quiet_demand _).at (h.turnedTo entry (priceOf num ctx itemInfo entry).warm))
        (fun book t ht => ?_) fun _ t ht => ⟨_, _, ht⟩
      exact wp_seq (progressEntry_keeps itemInfo _ _ _ slots t ⟨none, ht⟩)
        (fun _ u hu => setProcessing_reached none u hu.reached) fun _ _ hu => hu.reached

theorem deleteUnwantedOrders_reached (myOrders : OrderList) :
    Keeps (Reached out.toOrdersOutside d g) (deleteUnwantedOrders out ctx myOrders) := by
  rw [deleteUnwantedOrders]
  refine .ite (fun _ => .pure ()) fun _ => (quiet_ask _).reached.bind fun justStarted => ?_
  exact (Keeps.eachUntil shouldStop_quiet.reached fun id _ => tryDelete_reached id).bind fun _ => .pure ()

theorem processEntries_reached (entries : List ItemEntry) :
    Keeps (Reached out.toOrdersOutside d g) (processEntries num out ctx entries) := by
  refine (Keeps.read _).bind fun orders => (quiet_demand _).reached.bind fun wishList => ?_
  exact (Keeps.eachUntil shouldStop_quiet.reached fun entry _ => processEntry_reached _ entry).bind fun _ => .pure _

theorem holdCap_reached (existing : List String) :
    Keeps (Reached out.toOrdersOutside d g) (holdCap num out ctx existing) := by
  refine (Keeps.read _).bind fun orders => .ite (fun _ => ?_) fun _ => .pure ()
  exact .each fun order _ => .ite (fun _ => .pure ()) fun _ => tryDelete_reached order.id

theorem sweepOrphans_reached {entries : List ItemEntry} (hsweep : shouldSweep false entries = true) :
    Keeps (Reached out.toOrdersOutside d g) (sweepOrphans out ctx entries) := by
  refine (quiet_ask _).reached.bind fun now => ?_
  rintro w ⟨p, looked, h⟩
  rw [wp_bind, wp_read, next_ok, wp_bind, wp_read, next_ok, wp_bind, wp_change, next_ok]
  refine Keeps.each (fun id _ => tryDelete_reached id) _ ⟨p, looked, ?_, h.processing, h.dryRun⟩
  exact h.moves.tail (.sweep (w.desk looked) ctx.settings now hsweep)

theorem processItems_reached (entries : List ItemEntry) :
    Keeps (Reached out.toOrdersOutside d g) (processItems num out ctx entries) := by
  refine (processEntries_reached _).bind fun outcome => (holdCap_reached _).bind fun _ => ?_
  refine .ite (fun hsweep => (sweepOrphans_reached ?_).bind fun _ => .pure _) fun _ => .pure _
  exact (Bool.and_eq_true_iff.mp hsweep).2

/-- A cycle is made of moves. -/
theorem check_reached : Keeps (Reached out.toOrdersOutside d g) (check num out ctx) := by
  refine (setProcessing_reached none).bind fun _ => (Keeps.read _).bind fun orders => ?_
  exact (deleteUnwantedOrders_reached _).bind fun _ => (quiet_demand _).reached.bind fun entries => processItems_reached _

end Cycle

/-! ### An outside to run cycles against -/

/-- A market that takes every write and numbers its orders, with one book for every item; an empty
database; a machine that never stops the cycle. -/
def Outside.willing (entries : List ItemEntry) (book : LiveOrders) : Outside Nat where
  create params n := (.ok { simulatedOrder "" params with id := "m" ++ toString n }, n + 1)
  update orderId _ n := (.ok { simulatedOrder "" ⟨"", .buy, 0, 0, true, none, none, none⟩ with id := orderId }, n)
  delete orderId n := (.ok { simulatedOrder "" ⟨"", .buy, 0, 0, true, none, none, none⟩ with id := orderId }, n)
  myOrders n := (.ok [], n)
  uuid n := (toString n, n + 1)
  running n := (true, n)
  justStarted n := (false, n)
  now n := (0, n)
  interestingItems n := (.ok entries, n)
  wishListKeys n := (.ok [], n)
  liveOrders _ n := (.ok book, n)
  stockItem _ n := (.ok none, n)
  wishListItem _ n := (.ok none, n)
  updateStockItem _ n := (.ok (), n)
  updateWishListItem _ n := (.ok (), n)

def PriceFloats.whole : PriceFloats Int := ⟨id, (· + ·), fun a b => decide (a < b), id⟩

/-- A seller at 20 and a buyer at 10. -/
def LiveOrders.spread : LiveOrders where
  sellOrders := [⟨simulatedOrder "s" ⟨"lens", .sell, 20, 1, true, none, none, none⟩, "seller", .inGame⟩]
  buyOrders := [⟨simulatedOrder "b" ⟨"lens", .buy, 10, 1, true, none, none, none⟩, "buyer", .inGame⟩]

/-- Buy only, without caps. -/
def Settings.plain : Settings where
  autoDelete := false
  deleteConflictingOrders := false
  tradeModes := [.buy]
  general := {}
  wtb := ⟨0, -1, -1, -1, -1, -1⟩
  wts := ⟨-1, -1, -1, -1⟩

def ItemEntry.bid (wfmId : String) : ItemEntry :=
  { wfmUrl := wfmId, wfmId := wfmId, buyQuantity := 1, operations := ["Buy"] }

/-- Every item is worth 30. -/
def TradeContext.sample (settings : Settings) (warm : Bool) : TradeContext Int where
  settings := settings
  prices _ _ := some ⟨some 30, 30, warm, false⟩
  tradable url := some ⟨url, url, false⟩
  username := "me"
  banned := false

end Quantframe.Trader
