import Quantframe.Trader.Course
import Quantframe.Trader.SalePrice

/-!
# The row of an order

A workflow posts an order and then writes back the row it is for. Once a rule has locked the row, later rules move the
price but not the row.
-/

namespace Quantframe.Trader

open Lib Lib.Effect Market
open Handlers (OperationSet StockStatus)
open Trades (Error)

/-! ### The rows that are written back -/

/-- The outside, with the rows that it was given. -/
structure Noted (E : Type) where
  ext : E
  stock : List StockItem
  wish : List WishListItem

section Noting

variable {E α : Type}

def Noted.ask (q : E → α × E) : Noted E → α × Noted E := fun n => ((q n.ext).1, { n with ext := (q n.ext).2 })

def Outside.noting (out : Outside E) : Outside (Noted E) where
  create params := Noted.ask (out.create params)
  update id params := Noted.ask (out.update id params)
  delete id := Noted.ask (out.delete id)
  myOrders := Noted.ask out.myOrders
  uuid := Noted.ask out.uuid
  running := Noted.ask out.running
  justStarted := Noted.ask out.justStarted
  now := Noted.ask out.now
  interestingItems := Noted.ask out.interestingItems
  wishListKeys := Noted.ask out.wishListKeys
  liveOrders url := Noted.ask (out.liveOrders url)
  stockItem id := Noted.ask (out.stockItem id)
  wishListItem id := Noted.ask (out.wishListItem id)
  updateStockItem item n := Noted.ask (out.updateStockItem item) { n with stock := n.stock ++ [item] }
  updateWishListItem item n := Noted.ask (out.updateWishListItem item) { n with wish := n.wish ++ [item] }

/-- The writes of orders leave the rows alone. -/
theorem noting_keeping (out : Outside E) (stock : List StockItem) (wish : List WishListItem) :
    out.noting.toOrdersOutside.Keeping fun n => n.stock = stock ∧ n.wish = wish where
  create _ _ h := h
  update _ _ _ h := h
  delete _ _ h := h
  myOrders _ h := h
  uuid _ h := h

end Noting

/-! ### What a row tells -/

namespace Listing

/-- Where a row is not dirty it is what it was. -/
def Clean (l l' : Listing) : Prop := l'.isDirty = false → l'.listPrice = l.listPrice ∧ l'.status = l.status

theorem Clean.refl (l : Listing) : Clean l l := fun _ => ⟨rfl, rfl⟩

theorem Clean.setListPrice {l l' : Listing} (h : Clean l l') (price : Option Int) : Clean l (l'.setListPrice price) := by
  rw [Listing.setListPrice]
  split
  · exact h
  · intro hclean
    obtain ⟨hold, hsame⟩ := Bool.or_eq_false_iff.mp hclean
    have hprice : l'.listPrice = price := not_not.mp (of_decide_eq_false hsame)
    exact ⟨hprice.symm.trans (h hold).1, (h hold).2⟩

theorem Clean.setStatus {l l' : Listing} (h : Clean l l') (status : StockStatus) : Clean l (l'.setStatus status) := by
  rw [Listing.setStatus]
  split
  · exact h
  · intro hclean
    obtain ⟨hold, hsame⟩ := Bool.or_eq_false_iff.mp hclean
    have hstatus : l'.status = status := not_not.mp (of_decide_eq_false hsame)
    exact ⟨(h hold).1, hstatus.symm.trans (h hold).2⟩

theorem Clean.lock {l l' : Listing} (h : Clean l l') : Clean l l'.lock := h

/-- A row agrees with an order at this price, whose last rule has this status. -/
structure Agrees (l : Listing) (p : Nat) (lastRule : StockStatus) : Prop where
  listPrice : l.listPrice = some (p : Int)
  status : l.status = lastRule

theorem setListPrice_unlocked {l : Listing} (h : l.locked = false) (price : Option Int) :
    (l.setListPrice price).listPrice = price ∧ (l.setListPrice price).status = l.status ∧
      (l.setListPrice price).locked = false := by
  rw [setListPrice, h]
  exact ⟨rfl, rfl, rfl⟩

theorem setStatus_unlocked {l : Listing} (h : l.locked = false) (status : StockStatus) :
    (l.setStatus status).listPrice = l.listPrice ∧ (l.setStatus status).status = status ∧
      (l.setStatus status).locked = false := by
  rw [setStatus, h]
  exact ⟨rfl, rfl, rfl⟩

/-- No setter moves a locked row. -/
theorem setListPrice_locked {l : Listing} (h : l.locked = true) (price : Option Int) : l.setListPrice price = l := by
  rw [setListPrice, if_pos h]

theorem setStatus_locked {l : Listing} (h : l.locked = true) (status : StockStatus) : l.setStatus status = l := by
  rw [setStatus, if_pos h]

end Listing

/-! ### The row of a sale -/

namespace SaleTerms

/-- The status of the last rule that set the price. -/
def lastRule (s : SaleTerms) : StockStatus :=
  if s.LacksProfit then .toLowProfit else if s.SmaLimits then .smaLimit else .live

/-- Only one rule locks the row, and the price needs no floor and fits the market's integers. -/
def Plain (s : SaleTerms) : Prop := ¬ (s.SmaLimits ∧ s.LacksProfit) ∧ 1 ≤ s.price ∧ s.price < 2 ^ 32

instance (s : SaleTerms) : Decidable s.Plain := inferInstanceAs (Decidable (¬ (_ ∧ _) ∧ _ ∧ _))

end SaleTerms

theorem asU32_max_one {price : Int} : some price = some ((asU32 (max price 1) : Nat) : Int) ↔ 1 ≤ price ∧ price < 2 ^ 32 := by
  rw [Option.some_inj, asU32]
  omega

section SaleRow

/-- A draft that is not to be deleted has left its row alone so far, and its row is clean. -/
structure SellDraft.Untouched (s : SellDraft) (l : Listing) : Prop where
  listing : OperationSet.has s.operations "Delete" = false → s.listing = l
  clean : l.Clean s.listing

theorem not_has_of_add {operations : OperationSet} {operation other : String}
    (h : OperationSet.has (OperationSet.add operations operation) other = false) :
    OperationSet.has operations other = false := by
  rw [OperationSet.has_add] at h
  exact (Bool.or_eq_false_iff.mp h).1

namespace SellDraft.Untouched

variable {s : SellDraft} {l : Listing}

theorem hide (h : s.Untouched l) : s.hide.Untouched l := by
  rw [SellDraft.hide]
  split
  · refine ⟨fun hdelete => ?_, ((h.clean.setStatus _).setListPrice _).lock⟩
    simp [OperationSet.has_add] at hdelete
  · exact h

theorem readMarket (h : s.Untouched l) (market : ItemMarketInfo) (minPrice : Option Int) :
    (s.readMarket market minPrice).Untouched l := by
  rw [SellDraft.readMarket]
  split
  · exact ⟨h.listing, h.clean⟩
  · split
    · refine ⟨fun hdelete => ?_, ((h.clean.setStatus _).setListPrice _).lock⟩
      simp [OperationSet.has_add] at hdelete
    · exact ⟨h.listing, h.clean⟩

theorem raiseToMinimum (h : s.Untouched l) (minPrice : Option Int) : (s.raiseToMinimum minPrice).Untouched l := by
  cases minPrice with
  | none => exact h
  | some minPrice =>
      rw [SellDraft.raiseToMinimum]
      split
      · exact ⟨fun hdelete => h.listing (not_has_of_add hdelete), h.clean⟩
      · exact h

theorem holdPrice (h : s.Untouched l) (wts : ItemWtsSettings) (currentOrderPrice : Int) (prices : List Int) :
    (s.holdPrice wts currentOrderPrice prices).Untouched l := by
  rw [SellDraft.holdPrice]
  cases shouldApplyMaxPriceDrop wts.maxPriceDrop wts.minListingsBelow currentOrderPrice s.postPrice prices .sell with
  | none => exact h
  | some reason => exact ⟨fun hdelete => h.listing (not_has_of_add hdelete), h.clean⟩

end SellDraft.Untouched

variable {F : Type} (num : PriceFloats F) (ctx : TradeContext F) (entry : ItemEntry) (price : ItemPriceInfo F)
  (live : LiveOrders) (info : OrderInfo) (row : StockItem)

theorem heldDraft_untouched : (heldDraft ctx entry price live info row).Untouched row.listing := by
  rw [heldDraft]
  refine (((SellDraft.Untouched.hide ?_).readMarket _ _).raiseToMinimum _).holdPrice _ _ _
  exact ⟨fun _ => rfl, .refl _⟩

theorem limitedDraft_clean : row.listing.Clean (limitedDraft num ctx entry price live info row).listing := by
  have hclean := (heldDraft_untouched ctx entry price live info row).clean
  rw [limitedDraft]
  by_cases hlimits : (SaleTerms.of num ctx entry price live info row).SmaLimits
  · rw [limitSma_of_limits hlimits]
    exact ((hclean.setListPrice _).setStatus _).lock
  · rw [limitSma_of_not_limits hlimits]
    exact hclean

/-- A row that a sale need not write back is what it was. -/
theorem sellOffer_clean : row.listing.Clean (sellOffer num ctx entry price live info row).stockItem.listing := by
  have hclean := limitedDraft_clean num ctx entry price live info row
  have hwanted : row.listing.Clean (wantedDraft num ctx entry price live info row).listing := by
    by_cases hlacks : (SaleTerms.of num ctx entry price live info row).LacksProfit
    · rw [wantProfit_of_lacks hlacks]
      exact ((hclean.setStatus _).setListPrice _).lock
    · rw [wantProfit_of_not_lacks hlacks]
      exact hclean
  exact (hwanted.setListPrice _).setStatus _

variable {num ctx entry price live info row}

theorem wantedDraft_operations
    (h : OperationSet.has (sellOffer num ctx entry price live info row).operations "Delete" = false) :
    OperationSet.has (heldDraft ctx entry price live info row).operations "Delete" = false := by
  have hlimited : OperationSet.has (limitedDraft num ctx entry price live info row).operations "Delete" = false := by
    rw [sellOffer_eq] at h
    by_cases hlacks : (SaleTerms.of num ctx entry price live info row).LacksProfit
    · rw [wantProfit_of_lacks hlacks] at h
      exact not_has_of_add h
    · rw [wantProfit_of_not_lacks hlacks] at h
      exact h
  rw [limitedDraft] at hlimited
  by_cases hlimits : (SaleTerms.of num ctx entry price live info row).SmaLimits
  · rw [limitSma_of_limits hlimits] at hlimited
    exact not_has_of_add hlimited
  · rw [limitSma_of_not_limits hlimits] at hlimited
    exact hlimited

/-- Once the average has limited the price, the row is what it made of it. -/
theorem sellOffer_limited (hunlocked : row.listing.locked = false)
    (hdelete : OperationSet.has (sellOffer num ctx entry price live info row).operations "Delete" = false)
    (hlimits : (SaleTerms.of num ctx entry price live info row).SmaLimits) :
    (sellOffer num ctx entry price live info row).stockItem.listing.listPrice =
        some (SaleTerms.of num ctx entry price live info row).closedAvg ∧
      (sellOffer num ctx entry price live info row).stockItem.listing.status = .smaLimit := by
  have hlisting := (heldDraft_untouched ctx entry price live info row).listing (wantedDraft_operations hdelete)
  have hlimited : (limitedDraft num ctx entry price live info row).listing =
      ((row.listing.setListPrice (some (SaleTerms.of num ctx entry price live info row).closedAvg)).setStatus
        .smaLimit).lock := by
    rw [limitedDraft, limitSma_of_limits hlimits, hlisting]
  have hlocked : (limitedDraft num ctx entry price live info row).listing.locked = true := by rw [hlimited]; rfl
  have hwanted : (wantedDraft num ctx entry price live info row).listing =
      (limitedDraft num ctx entry price live info row).listing := by
    by_cases hlacks : (SaleTerms.of num ctx entry price live info row).LacksProfit
    · rw [wantProfit_of_lacks hlacks]
      dsimp only
      rw [Listing.setStatus_locked hlocked, Listing.setListPrice_locked hlocked, Listing.lock, ← hlocked]
    · rw [wantProfit_of_not_lacks hlacks]
  rw [sellOffer_eq]
  dsimp only
  rw [hwanted, Listing.setListPrice_locked hlocked, Listing.setStatus_locked hlocked, hlimited]
  obtain ⟨hprice, -, hopen⟩ := Listing.setListPrice_unlocked hunlocked
    (some (SaleTerms.of num ctx entry price live info row).closedAvg)
  obtain ⟨hprice', hstatus, -⟩ := Listing.setStatus_unlocked hopen .smaLimit
  exact ⟨hprice'.trans hprice, hstatus⟩

/-- Otherwise the row has the price of the rules. -/
theorem sellOffer_not_limited (hunlocked : row.listing.locked = false)
    (hdelete : OperationSet.has (sellOffer num ctx entry price live info row).operations "Delete" = false)
    (hlimits : ¬ (SaleTerms.of num ctx entry price live info row).SmaLimits) :
    (sellOffer num ctx entry price live info row).stockItem.listing.listPrice =
        some (SaleTerms.of num ctx entry price live info row).price ∧
      (sellOffer num ctx entry price live info row).stockItem.listing.status =
        (SaleTerms.of num ctx entry price live info row).lastRule := by
  have hlisting := (heldDraft_untouched ctx entry price live info row).listing (wantedDraft_operations hdelete)
  have hlimited : (limitedDraft num ctx entry price live info row).listing = row.listing := by
    rw [limitedDraft, limitSma_of_not_limits hlimits, hlisting]
  rw [SaleTerms.lastRule, if_neg hlimits]
  by_cases hlacks : (SaleTerms.of num ctx entry price live info row).LacksProfit
  · obtain ⟨-, hstatus, hopen⟩ := Listing.setStatus_unlocked hunlocked .toLowProfit
    obtain ⟨hprice, hsame, -⟩ := Listing.setListPrice_unlocked hopen
      (some (SaleTerms.of num ctx entry price live info row).price)
    rw [if_pos hlacks, sellOffer_eq, wantProfit_of_lacks hlacks]
    dsimp only
    rw [hlimited, Listing.setListPrice_locked rfl, Listing.setStatus_locked rfl]
    exact ⟨hprice, hsame.trans hstatus⟩
  · obtain ⟨hprice, -, hopen⟩ := Listing.setListPrice_unlocked hunlocked
      (some (SaleTerms.of num ctx entry price live info row).averagedPrice)
    obtain ⟨hprice', hstatus, -⟩ := Listing.setStatus_unlocked hopen .live
    rw [if_neg hlacks, SaleTerms.price, if_neg hlacks, sellOffer_eq, wantProfit_of_not_lacks hlacks]
    dsimp only
    rw [hlimited, limitedDraft_price]
    exact ⟨hprice'.trans hprice, hstatus⟩

/-- The row agrees with the price that is posted, unless two rules set it or it is not the price of the rules. -/
theorem sellOffer_agrees_iff (hunlocked : row.listing.locked = false)
    (hdelete : OperationSet.has (sellOffer num ctx entry price live info row).operations "Delete" = false) :
    (sellOffer num ctx entry price live info row).stockItem.listing.Agrees
        (asU32 (max (sellOffer num ctx entry price live info row).postPrice 1))
        (SaleTerms.of num ctx entry price live info row).lastRule ↔
      (SaleTerms.of num ctx entry price live info row).Plain := by
  rw [sellOffer_price]
  by_cases hlimits : (SaleTerms.of num ctx entry price live info row).SmaLimits
  · obtain ⟨hprice, hstatus⟩ := sellOffer_limited hunlocked hdelete hlimits
    by_cases hlacks : (SaleTerms.of num ctx entry price live info row).LacksProfit
    · refine iff_of_false (fun hagrees => ?_) fun hplain => hplain.1 ⟨hlimits, hlacks⟩
      have hlast := hstatus.symm.trans hagrees.status
      rw [SaleTerms.lastRule, if_pos hlacks] at hlast
      cases hlast
    · have hsame : (SaleTerms.of num ctx entry price live info row).closedAvg =
          (SaleTerms.of num ctx entry price live info row).price := by
        rw [SaleTerms.price, if_neg hlacks, SaleTerms.averagedPrice, if_pos hlimits]
      have hlast : (SaleTerms.of num ctx entry price live info row).lastRule = .smaLimit := by
        rw [SaleTerms.lastRule, if_neg hlacks, if_pos hlimits]
      rw [hsame] at hprice
      exact ⟨fun hagrees => ⟨fun hboth => hlacks hboth.2, asU32_max_one.mp (hprice.symm.trans hagrees.listPrice)⟩,
        fun hplain => ⟨hprice.trans (asU32_max_one.mpr hplain.2), hstatus.trans hlast.symm⟩⟩
  · obtain ⟨hprice, hstatus⟩ := sellOffer_not_limited hunlocked hdelete hlimits
    exact ⟨fun hagrees => ⟨fun hboth => hlimits hboth.1, asU32_max_one.mp (hprice.symm.trans hagrees.listPrice)⟩,
      fun hplain => ⟨hprice.trans (asU32_max_one.mpr hplain.2), hstatus⟩⟩

end SaleRow

/-! ### The row of a wish -/

/-- What the rules of a wish read. -/
structure WishTerms where
  buyers : Nat
  highestPrice : Int
  avgPrice : Int
  maxPrice : Int
  minPrice : Int

namespace WishTerms

variable (s : WishTerms)

def marketPrice : Int := if s.buyers = 0 then s.avgPrice else s.highestPrice

def cappedPrice : Int := if 0 < s.maxPrice ∧ s.maxPrice < s.marketPrice then s.maxPrice else s.marketPrice

def price : Int := max (if 0 < s.minPrice ∧ s.cappedPrice < s.minPrice then s.minPrice else s.cappedPrice) 1

/-- The status of the last rule that set the price. -/
def lastRule : StockStatus := if s.buyers = 0 then .noBuyers else .live

/-- There are buyers, and the price fits the market's integers. -/
def Plain : Prop := s.buyers ≠ 0 ∧ s.price < 2 ^ 32

instance : Decidable s.Plain := inferInstanceAs (Decidable (_ ≠ _ ∧ _))

end WishTerms

section WishRow

variable {F : Type} {num : PriceFloats F} {entry : ItemEntry} {price : ItemPriceInfo F} {info : OrderInfo}
  {item : WishListItem}

def WishTerms.of (num : PriceFloats F) (entry : ItemEntry) (price : ItemPriceInfo F) (item : WishListItem) :
    WishTerms where
  buyers := entry.buyMarketInfo.volume
  highestPrice := entry.buyMarketInfo.highestPrice
  avgPrice := num.asI64 price.avgPrice
  maxPrice := item.maxPrice
  minPrice := item.minPrice

theorem wishOffer_price :
    (wishOffer num entry price info item).postPrice = (WishTerms.of num entry price item).price := by
  simp only [wishOffer, WishTerms.price, WishTerms.cappedPrice, WishTerms.marketPrice, WishTerms.of,
    apply_ite Prod.fst]
  rfl

/-- The row of a wish, and the operations, once the hidden are off the market. -/
def shownRow (item : WishListItem) (operations : OperationSet) : Listing × OperationSet :=
  if item.listing.isHidden then
    (((item.listing.setStatus .inActive).setListPrice none).lock, OperationSet.add operations "Delete")
  else (item.listing, operations)

/-- The row of a wish is given the price and taken for live last, whatever the market was. -/
theorem wishOffer_listing :
    (wishOffer num entry price info item).item.listing =
      ((if entry.buyMarketInfo.volume = 0 then (shownRow item info.operations).1.setStatus .noBuyers
        else (shownRow item info.operations).1).setListPrice
          (some (wishOffer num entry price info item).postPrice)).setStatus .live := by
  simp only [wishOffer, shownRow, apply_ite Prod.fst, apply_ite Prod.snd]

theorem wishOffer_operations
    (h : OperationSet.has (wishOffer num entry price info item).operations "Delete" = false) :
    item.listing.isHidden = false := by
  by_contra hhidden
  rw [Bool.not_eq_false] at hhidden
  simp only [wishOffer, hhidden, if_true] at h
  split_ifs at h <;> simp [OperationSet.has_add] at h

/-- A row that a wish need not write back is what it was. -/
theorem wishOffer_clean : item.listing.Clean (wishOffer num entry price info item).item.listing := by
  have hshown : item.listing.Clean (shownRow item info.operations).1 := by
    rw [shownRow]
    split
    · exact (((Listing.Clean.refl _).setStatus _).setListPrice _).lock
    · exact .refl _
  rw [wishOffer_listing]
  split
  · exact ((hshown.setStatus _).setListPrice _).setStatus _
  · exact (hshown.setListPrice _).setStatus _

theorem asU32_of_pos {price : Int} (h : 1 ≤ price) : some price = some ((asU32 price : Nat) : Int) ↔ price < 2 ^ 32 := by
  rw [Option.some_inj, asU32]
  omega

/-- The row agrees with the price that is posted, unless nobody buys the item or the price is too large. -/
theorem wishOffer_agrees_iff (hunlocked : item.listing.locked = false)
    (hdelete : OperationSet.has (wishOffer num entry price info item).operations "Delete" = false) :
    (wishOffer num entry price info item).item.listing.Agrees
        (asU32 (wishOffer num entry price info item).postPrice) (WishTerms.of num entry price item).lastRule ↔
      (WishTerms.of num entry price item).Plain := by
  have hshown : (shownRow item info.operations).1 = item.listing := by
    rw [shownRow, wishOffer_operations hdelete]
    rfl
  have hlisting : (wishOffer num entry price info item).item.listing = _ := wishOffer_listing
  rw [hshown, wishOffer_price] at hlisting
  have hone : 1 ≤ (WishTerms.of num entry price item).price := le_max_right _ _
  rw [wishOffer_price, hlisting]
  by_cases hbuyers : entry.buyMarketInfo.volume = 0
  · have hlast : (WishTerms.of num entry price item).lastRule = .noBuyers := if_pos hbuyers
    rw [if_pos hbuyers, hlast]
    obtain ⟨-, -, hopen⟩ := Listing.setStatus_unlocked hunlocked .noBuyers
    obtain ⟨-, -, hopen⟩ := Listing.setListPrice_unlocked hopen (some (WishTerms.of num entry price item).price)
    refine iff_of_false (fun hagrees => ?_) fun hplain => hplain.1 hbuyers
    cases (Listing.setStatus_unlocked hopen .live).2.1.symm.trans hagrees.status
  · have hlast : (WishTerms.of num entry price item).lastRule = .live := if_neg hbuyers
    rw [if_neg hbuyers, hlast]
    obtain ⟨hprice, -, hopen⟩ :=
      Listing.setListPrice_unlocked hunlocked (some (WishTerms.of num entry price item).price)
    obtain ⟨hprice', hstatus, -⟩ := Listing.setStatus_unlocked hopen .live
    have hprice := hprice'.trans hprice
    exact ⟨fun hagrees => ⟨hbuyers, (asU32_of_pos hone).mp (hprice.symm.trans hagrees.listPrice)⟩,
      fun hplain => ⟨hprice.trans ((asU32_of_pos hone).mpr hplain.2), hstatus⟩⟩

end WishRow

/-! ### The workflows -/

section Workflows

variable {E F : Type} {num : PriceFloats F} {out : Outside E} {ctx : TradeContext F} {itemInfo : CacheTradableItem}
  {entry : ItemEntry} {price : ItemPriceInfo F} {live : LiveOrders} {route : Route} {slots : Slots}
  {w t : World (Noted E)} {id : Int}

/-- The row after a workflow: the last that was written back, or the one that was read. -/
def StockItem.after (row : StockItem) (noted : Noted E) : StockItem := noted.stock.getLast?.getD row

def WishListItem.after (item : WishListItem) (noted : Noted E) : WishListItem := noted.wish.getLast?.getD item

/-- A dirty row is written after the order, and a clean one is not. -/
theorem noted_after {A : Type} (rows : Noted E → List A) {m : TraderM (Noted E) Unit}
    {update : Noted E → Except Error Unit × Noted E} {row : A} {dirty : Bool} {before : List A} {w : World (Noted E)}
    (hkeeps : m.wp (fun _ t => rows t.ext = before) w) (hupdate : ∀ noted, rows (update noted).2 = rows noted ++ [row]) :
    (m >>= fun _ => if dirty then demand update else pure ()).wp
      (fun r t => r = .ok () → rows t.ext = before ++ if dirty then [row] else []) w := by
  apply wp_seq hkeeps
  · intro _ t ht
    split
    next =>
      have hnoted : (demand update).wp (fun _ u => rows u.ext = rows t.ext ++ [row]) t :=
        demand_ext (Q := fun _ noted => rows noted = rows t.ext ++ [row]) (hupdate t.ext)
      rw [ht] at hnoted
      exact wp_mono hnoted fun _ _ hu _ => hu
    next =>
      intro _
      rw [List.append_nil]
      exact ht
  · intro e t _ hok
    cases hok

/-- A sale that ends well has written its row back, if it changed it. -/
theorem writeSale_noted (out : Outside E) (itemInfo : CacheTradableItem) (entry : ItemEntry) (route : Route)
    (slots : Slots) (info : OrderInfo) (offer : SellOffer) (w : World (Noted E)) :
    (writeSale out.noting itemInfo entry route slots info offer).wp
      (fun r t => r = .ok () →
        t.ext.stock = w.ext.stock ++ if offer.stockItem.listing.isDirty then [offer.stockItem] else []) w := by
  have hkeeps := (progressOrder_steady (noting_keeping out w.ext.stock w.ext.wish) entry route .sell
    (asU32 (max offer.postPrice 1)) (getPerTrade itemInfo)
    (setOrderMarketMetrics (populateOrderProperties info.properties entry offer.operations) offer.profit)
    offer.operations slots).keeps
  refine noted_after Noted.stock (wp_mono (hkeeps w ⟨rfl, rfl⟩) fun r t ht => ht.1) ?_
  exact fun _ => rfl

theorem StockItem.after_write {row written : StockItem} {noted : Noted E} (hclean : row.listing.Clean written.listing)
    (h : noted.stock = [] ++ if written.listing.isDirty then [written] else []) :
    (row.after noted).listing.listPrice = written.listing.listPrice ∧
      (row.after noted).listing.status = written.listing.status := by
  rw [StockItem.after, h, List.nil_append]
  split
  · exact ⟨rfl, rfl⟩
  · next hclean' =>
      obtain ⟨hprice, hstatus⟩ := hclean (Bool.eq_false_iff.mpr hclean')
      exact ⟨hprice.symm, hstatus.symm⟩

theorem Listing.Agrees.congr {l l' : Listing} {p : Nat} {status : StockStatus}
    (hprice : l'.listPrice = l.listPrice) (hstatus : l'.status = l.status) : l'.Agrees p status ↔ l.Agrees p status :=
  ⟨fun h => ⟨hprice.symm.trans h.listPrice, hstatus.symm.trans h.status⟩,
    fun h => ⟨hprice.trans h.listPrice, hstatus.trans h.status⟩⟩

/-- The row after a sale agrees with what it has posted exactly when one rule at most has locked it. -/
theorem progressSelling_row {row : StockItem} {ext : Noted E} (hid : entry.stockId = some id)
    (hrow : out.noting.stockItem id w.ext = (.ok (some row), ext)) (hstock : w.ext.stock = [])
    (hunlocked : row.listing.locked = false)
    (hrun : (progressSelling num out.noting ctx itemInfo entry price live route slots).exec w = (.ok (), t)) :
    Trail
      (fun write => ∀ p, write.action.price = some p →
        ((row.after t.ext).listing.Agrees p
            (SaleTerms.of num ctx entry price live (.of (foundOrder w entry .sell route)) row).lastRule ↔
          (SaleTerms.of num ctx entry price live (.of (foundOrder w entry .sell route)) row).Plain)) w t := by
  rw [progressSelling_exec hid hrow] at hrun
  split at hrun
  · cases hrun
    exact .refl w
  · split at hrun
    · cases hrun
      exact (Trail.refl w).looked ext entry .sell route
    · have hext : ext.stock = [] := by
        have hsame : (out.noting.stockItem id w.ext).2.stock = w.ext.stock := rfl
        rw [hrow] at hsame
        exact hsame.trans hstock
      have hnoted := exec_of_wp (writeSale_noted out itemInfo entry route slots _ _ _) hrun rfl
      have hsame : (w.looked ext entry .sell route).ext.stock = [] := hext
      rw [hsame] at hnoted
      obtain ⟨hprice, hstatus⟩ := StockItem.after_write
        (sellOffer_clean num ctx entry price live (.of (foundOrder w entry .sell route)) row) hnoted
      refine exec_of_wp (writeSale_trail itemInfo route slots _ _ (fun hdelete => ?_) _
        ((Trail.refl w).looked ext entry .sell route)) hrun
      exact (Listing.Agrees.congr hprice hstatus).trans (sellOffer_agrees_iff hunlocked hdelete)

/-- The write of a wish, then that of its row. -/
def writeWish (out : Outside E) (itemInfo : CacheTradableItem) (entry : ItemEntry) (route : Route) (slots : Slots)
    (info : OrderInfo) (offer : WishOffer) : TraderM E Unit := do
  let properties := populateOrderProperties info.properties entry offer.operations
  let properties := setOrderMarketMetrics properties 0
  progressOrder out.toOrdersOutside entry route .buy (asU32 offer.postPrice) (getPerTrade itemInfo) properties
    offer.operations slots
  finalizeWishListItem out offer.item

/-- A wish that finds its row. -/
theorem progressWishList_exec {out : Outside E} {w : World E} {item : WishListItem} {ext : E}
    (hid : entry.wishListId = some id) (hrow : out.wishListItem id w.ext = (.ok (some item), ext))
    (itemInfo : CacheTradableItem) (price : ItemPriceInfo F) (route : Route) (slots : Slots) :
    (progressWishList num out ctx itemInfo entry price route slots).exec w =
      if isBlacklisted ctx.settings itemInfo entry .wishList = true then (.ok (), w)
      else if item.listing.isHidden = true ∧ item.listing.status = .inActive then
        (.ok (), w.looked ext entry .buy route)
      else
        (writeWish out itemInfo entry route slots (.of (foundOrder w entry .buy route))
          (wishOffer num entry price (.of (foundOrder w entry .buy route)) item)).exec
            (w.looked ext entry .buy route) := by
  have hgot : (getWishListItem out entry).exec w = (.ok (some item), { w with ext := ext }) := by
    rw [getWishListItem, hid]
    exact demand_exec hrow
  rw [progressWishList]
  split
  · rfl
  · rw [exec_bind, hgot]
    dsimp only
    rw [exec_bind]
    change (if _ then _ else _ : TraderM E Unit).exec _ = _
    split
    · rfl
    · rfl

theorem writeWish_trail {out : Outside E} {start : World E} (itemInfo : CacheTradableItem) (route : Route)
    (slots : Slots) (info : OrderInfo) (offer : WishOffer) {Good : Nat → Prop}
    (h : OperationSet.has offer.operations "Delete" = false → Good (asU32 offer.postPrice)) :
    Keeps (Trail (fun write => ∀ p, write.action.price = some p → Good p) start)
      (writeWish out itemInfo entry route slots info offer) :=
  (progressOrder_trail (permits_price h) slots).bind fun _ => (quiet_finalizeWishListItem _).trail

/-- A wish that ends well has written its row back, if it changed it. -/
theorem writeWish_noted (out : Outside E) (itemInfo : CacheTradableItem) (entry : ItemEntry) (route : Route)
    (slots : Slots) (info : OrderInfo) (offer : WishOffer) (w : World (Noted E)) :
    (writeWish out.noting itemInfo entry route slots info offer).wp
      (fun r t => r = .ok () →
        t.ext.wish = w.ext.wish ++ if offer.item.listing.isDirty then [offer.item] else []) w := by
  have hkeeps := (progressOrder_steady (noting_keeping out w.ext.stock w.ext.wish) entry route .buy
    (asU32 offer.postPrice) (getPerTrade itemInfo)
    (setOrderMarketMetrics (populateOrderProperties info.properties entry offer.operations) 0)
    offer.operations slots).keeps
  refine noted_after Noted.wish (wp_mono (hkeeps w ⟨rfl, rfl⟩) fun r t ht => ht.2) ?_
  exact fun _ => rfl

theorem WishListItem.after_write {item written : WishListItem} {noted : Noted E}
    (hclean : item.listing.Clean written.listing)
    (h : noted.wish = [] ++ if written.listing.isDirty then [written] else []) :
    (item.after noted).listing.listPrice = written.listing.listPrice ∧
      (item.after noted).listing.status = written.listing.status := by
  rw [WishListItem.after, h, List.nil_append]
  split
  · exact ⟨rfl, rfl⟩
  · next hclean' =>
      obtain ⟨hprice, hstatus⟩ := hclean (Bool.eq_false_iff.mpr hclean')
      exact ⟨hprice.symm, hstatus.symm⟩

/-- The row after a wish agrees with what it has posted exactly when there are buyers. -/
theorem progressWishList_row {item : WishListItem} {ext : Noted E} (hid : entry.wishListId = some id)
    (hrow : out.noting.wishListItem id w.ext = (.ok (some item), ext)) (hwish : w.ext.wish = [])
    (hunlocked : item.listing.locked = false)
    (hrun : (progressWishList num out.noting ctx itemInfo entry price route slots).exec w = (.ok (), t)) :
    Trail
      (fun write => ∀ p, write.action.price = some p →
        ((item.after t.ext).listing.Agrees p (WishTerms.of num entry price item).lastRule ↔
          (WishTerms.of num entry price item).Plain)) w t := by
  rw [progressWishList_exec hid hrow] at hrun
  split at hrun
  · cases hrun
    exact .refl w
  · split at hrun
    · cases hrun
      exact (Trail.refl w).looked ext entry .buy route
    · have hext : ext.wish = [] := by
        have hsame : (out.noting.wishListItem id w.ext).2.wish = w.ext.wish := rfl
        rw [hrow] at hsame
        exact hsame.trans hwish
      have hnoted := exec_of_wp (writeWish_noted out itemInfo entry route slots _ _ _) hrun rfl
      have hsame : (w.looked ext entry .buy route).ext.wish = [] := hext
      rw [hsame] at hnoted
      obtain ⟨hprice, hstatus⟩ := WishListItem.after_write wishOffer_clean hnoted
      refine exec_of_wp (writeWish_trail itemInfo route slots _ _ (fun hdelete => ?_) _
        ((Trail.refl w).looked ext entry .buy route)) hrun
      exact (Listing.Agrees.congr hprice hstatus).trans (wishOffer_agrees_iff hunlocked hdelete)

end Workflows

/-- The rows agree with the orders that were posted for them, in price and in the status of the last rule, exactly where
no row is locked by one rule before another moves the price, no floor or wrap moves the price after the row, and a wish
has buyers. -/
theorem rows_agree_iff {E F : Type} (num : PriceFloats F) (out : Outside E) (ctx : TradeContext F)
    (itemInfo : CacheTradableItem) (entry : ItemEntry) (price : ItemPriceInfo F) (live : LiveOrders) (route : Route)
    (slots : Slots) (w t : World (Noted E)) (id : Int) (ext : Noted E) (hnew : w.ext.stock = [] ∧ w.ext.wish = []) :
    (∀ row, entry.stockId = some id → out.noting.stockItem id w.ext = (.ok (some row), ext) →
      row.listing.locked = false →
      (progressSelling num out.noting ctx itemInfo entry price live route slots).exec w = (.ok (), t) →
      Trail
        (fun write => ∀ p, write.action.price = some p →
          ((row.after t.ext).listing.Agrees p
              (SaleTerms.of num ctx entry price live (.of (foundOrder w entry .sell route)) row).lastRule ↔
            (SaleTerms.of num ctx entry price live (.of (foundOrder w entry .sell route)) row).Plain)) w t) ∧
    (∀ item, entry.wishListId = some id → out.noting.wishListItem id w.ext = (.ok (some item), ext) →
      item.listing.locked = false →
      (progressWishList num out.noting ctx itemInfo entry price route slots).exec w = (.ok (), t) →
      Trail
        (fun write => ∀ p, write.action.price = some p →
          ((item.after t.ext).listing.Agrees p (WishTerms.of num entry price item).lastRule ↔
            (WishTerms.of num entry price item).Plain)) w t) :=
  ⟨fun _ hid hrow hunlocked hrun => progressSelling_row hid hrow hnew.1 hunlocked hrun,
    fun _ hid hrow hunlocked hrun => progressWishList_row hid hrow hnew.2 hunlocked hrun⟩

namespace Samples

def notedWorld : World (Noted Nat) := ⟨.new (some ⟨.new [], 100⟩) false, [], ⟨0, [], []⟩, none, [], []⟩

/-- The world after a sale of a row at an average of `closedAvg`. -/
def sold (row : StockItem) (closedAvg : Int) (live : LiveOrders) : World (Noted Nat) :=
  ((progressSelling .whole (Outside.holding row).noting (.sample .plain true) (itemNamed "prism")
    (.ofStockRow row "prism" live) ⟨some closedAvg, closedAvg, true, false⟩ live .live {}).exec notedWorld).2

/-- A wish for a lens. -/
def lensWish : WishListItem where
  id := 3
  quantity := 1
  listing := { listPrice := none, status := .pending, isHidden := false }
  priceHistory := []
  properties := none
  minPrice := 0
  maxPrice := 0

def lensEntry (live : LiveOrders) : ItemEntry :=
  ItemEntry.applyMarketInfo
    { wishListId := some 3, wfmUrl := "lens", wfmId := "lens", buyQuantity := 1, operations := ["WishList"] } live

def wished (live : LiveOrders) : World (Noted Nat) :=
  ((progressWishList .whole (Outside.wishing lensWish).noting (.sample .plain true) (itemNamed "lens") (lensEntry live)
    ⟨some 30, 30, true, false⟩ .live {}).exec notedWorld).2

end Samples

open Samples

/-- The prism is sold at 30 to make a profit of 20, and the lens wished for at 10. -/
theorem rows_agree_iff_prism_lens :
    (StockItem.prism.after (sold .prism 15 .spread).ext).listing.Agrees 30 .toLowProfit ∧
      (lensWish.after (wished .spread).ext).listing.Agrees 10 .live := by
  constructor
  · have hagree := (rows_agree_iff .whole (.holding .prism) (.sample .plain true) (itemNamed "prism")
      (.ofStockRow .prism "prism" .spread) ⟨some 15, 15, true, false⟩ .spread .live {} notedWorld
      (sold .prism 15 .spread) 7 ⟨0, [], []⟩ ⟨rfl, rfl⟩).1 .prism rfl rfl rfl (exec_eq rfl)
    have hposted := hagree.posted rfl 30 (by decide +kernel)
    exact hposted.mpr (by decide +kernel)
  · have hagree := (rows_agree_iff .whole (.wishing lensWish) (.sample .plain true) (itemNamed "lens")
      (lensEntry .spread) ⟨some 30, 30, true, false⟩ .spread .live {} notedWorld (wished .spread) 3 ⟨0, [], []⟩
      ⟨rfl, rfl⟩).2 lensWish rfl rfl rfl (exec_eq rfl)
    have hposted := hagree.posted rfl 10 (by decide +kernel)
    exact hposted.mpr (by decide +kernel)

/-- Bought for 10, with an average limit of 5 and a profit of 15. -/
def StockItem.arcane : StockItem := { StockItem.prism with minPrice := none, minProfit := some 15, minSma := some 5 }

/-- Two sellers ask 11 and the average is 20: the arcane is posted at 25 and its row says 20; a wish that nobody else
has is posted at the average and its row says that it is live. -/
theorem rows_disagree :
    posted (sold .arcane 20 (.priced [11, 11] [])).trace = [25] ∧
      (StockItem.arcane.after (sold .arcane 20 (.priced [11, 11] [])).ext).listing.listPrice = some 20 ∧
      (StockItem.arcane.after (sold .arcane 20 (.priced [11, 11] [])).ext).listing.status = .smaLimit ∧
      posted (wished (.priced [20] [])).trace = [30] ∧
      (lensWish.after (wished (.priced [20] [])).ext).listing.status = .live := by
  decide +kernel

end Quantframe.Trader
