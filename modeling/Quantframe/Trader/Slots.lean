import Quantframe.Lib.Log
import Quantframe.Trader.Airtight
import Quantframe.Trader.Deletes

/-!
# Slots for sales

A live order takes one of the slots that the market grants. Buys leave free what the backlog counts; a sale
that the backlog did not count may take of it.
-/

namespace Quantframe.Trader

open Lib Lib.Effect Market
open Handlers (OperationSet)

namespace TradeOrders

def used (o : TradeOrders) : Nat := (o.live.map fun client => client.orders.totalOrders).getD 0

def limit (o : TradeOrders) : Nat := (o.live.map OrderRoute.limit).getD 0

def freeSlots (o : TradeOrders) : Nat := o.limit - o.used

end TradeOrders

/-- An entry that the backlog counts: headed for a live sell order that does not exist yet. -/
def ItemEntry.isCounted {F : Type} (ctx : TradeContext F) (orders : TradeOrders) (e : ItemEntry) : Bool :=
  OperationSet.has e.operations "Sell" && e.stockId.isSome &&
    (let warm := ((ctx.prices e.wfmId e.subType).map ItemPriceInfo.warm).getD false
     let route := routeFor orders.globalDryRun warm
     decide (route = .live) && (orders.findOrder e.wfmId (.fromEntity e.subType) .sell route).isNone)

/-! ### Who has created a live sell order -/

def Action.creates (side : OrderType) : Action → Bool
  | .create params .live => decide (params.orderType = side)
  | .create _ (.dryRun _) | .update _ _ | .updateLocal _ _ | .delete _ | .refresh => false

/-- The live sell orders that counted entries have created, and those that other entries have. -/
structure Tally where
  counting : Bool
  counted : Nat
  others : Nat

def Tally.step (counts : ItemEntry → Bool) (t : Tally) : Step → Tally
  | .turn entry => { t with counting := counts entry }
  | .write w =>
      if w.action.creates .sell && w.succeeded then
        if t.counting then { t with counted := t.counted + 1 } else { t with others := t.others + 1 }
      else t
  | .lookup .. | .blocked .. => t

def tally (counts : ItemEntry → Bool) (steps : List Step) : Tally := steps.foldl (Tally.step counts) ⟨false, 0, 0⟩

/-- What a backlog is held to: it, the entries it counts, and the wish-list and the start of its cycle. -/
structure Ledger where
  before : List Step
  start : TradeOrders
  backlog : Nat
  counts : ItemEntry → Bool
  wishList : List (String × String)

/-- After each write the free slots, and those that other sales took, are enough for the counted entries that
have not created their order; a counted entry finds no slot only where other sales took some. -/
def Step.Reserves (l : Ledger) (earlier : List Step) : Step → Prop
  | .write w =>
      l.backlog - (tally l.counts (earlier ++ [.write w])).counted ≤
        w.orders.freeSlots + (tally l.counts (earlier ++ [.write w])).others
  | .blocked entry orderType route _ _ =>
      orderType = .sell → route = .live → l.counts entry = true → 0 < (tally l.counts earlier).others
  | .lookup .. | .turn _ => True

/-- An order makes room for a live sale only, and no bid of the wish-list does. -/
def Step.Spares (l : Ledger) : Step → Prop
  | .blocked _ orderType route wishList (some victim) =>
      orderType = .sell ∧ route = .live ∧ wishList = l.wishList ∧
        (victim.itemId, keyOf victim.subtype.toEntity) ∉ wishList ∧
        OperationSet.has (victim.properties.operations.getD []) "WishList" = false
  | .blocked _ _ _ _ none | .lookup .. | .turn _ | .write _ => True

/-- The counted entries have created at most `m` orders, and `counting` tells whether one is in process. -/
structure Tallied (l : Ledger) (m : Nat) (counting : Bool) (orders : TradeOrders) (steps : List Step) : Prop where
  room : 0 < l.backlog →
    orders.used + l.backlog ≤ orders.limit + (tally l.counts steps).counted + (tally l.counts steps).others
  counted : (tally l.counts steps).counted ≤ m
  counting : (tally l.counts steps).counting = counting
  reserves : Throughout (Step.Reserves l) steps

def Held (l : Ledger) (m : Nat) (counting : Bool) (orders : TradeOrders) (trace : List Step) : Prop :=
  ∃ steps, trace = l.before ++ steps ∧ (∀ step ∈ steps, step.Spares l) ∧
    (l.backlog ≤ l.start.freeSlots → (∀ step ∈ steps, step.Succeeded) → Tallied l m counting orders steps)

/-! ### What a write does to the slots -/

section Slots

variable {E : Type} {out : OrdersOutside E} {o after : TradeOrders} {action : Action} {sent : Bool}

theorem add_totalOrders (l : OrderList) (order : Order) : (l.add order).totalOrders = l.totalOrders + 1 := by
  unfold OrderList.add OrderList.totalOrders
  cases order.orderType with
  | sell =>
      simp only [List.length_append, List.length_singleton]
      omega
  | buy =>
      simp only [List.length_append, List.length_singleton]
      omega

theorem update_totalOrders (l : OrderList) (id : String) (params : UpdateOrderParams) :
    (l.update id params).totalOrders = l.totalOrders := by
  have hlength (side : OrderType) : ((l.update id params).side side).length = (l.side side).length := by
    have hunits : ((l.update id params).side side).map (fun _ => ()) = (l.side side).map fun _ => () :=
      OrderList.update_map (fun _ => rfl) l id side
    have hmap := congrArg List.length hunits
    rw [List.length_map, List.length_map] at hmap
    exact hmap
  exact congrArg₂ (· + ·) (hlength .sell) (hlength .buy)

theorem removeById_totalOrders (l : OrderList) (id : String) : (l.removeById id).totalOrders ≤ l.totalOrders := by
  have hlength (side : OrderType) : ((l.removeById id).side side).length ≤ (l.side side).length := by
    rw [OrderList.removeById_side]
    exact List.length_filter_le _ _
  exact Nat.add_le_add (hlength .sell) (hlength .buy)

theorem used_mapLive {f : OrderList → OrderList} {k : Nat}
    (hf : ∀ l : OrderList, (f l).totalOrders ≤ l.totalOrders + k) (failures : Nat) :
    ({ o.mapLive f with failures := failures } : TradeOrders).used ≤ o.used + k := by
  unfold TradeOrders.used TradeOrders.mapLive
  cases o.live with
  | none => exact Nat.zero_le _
  | some client => exact hf client.orders

theorem limit_mapLive (f : OrderList → OrderList) (failures : Nat) :
    ({ o.mapLive f with failures := failures } : TradeOrders).limit = o.limit := by
  unfold TradeOrders.limit TradeOrders.mapLive
  cases o.live with
  | none => rfl
  | some client => rfl

theorem Does.limit {succeeded : Bool} (h : Does out o action sent succeeded after) : after.limit = o.limit := by
  cases h with
  | liveCreate => exact limit_mapLive _ 0
  | liveUpdate => exact limit_mapLive _ 0
  | liveLocal params => exact limit_mapLive (fun list => list.update _ params) o.failures
  | liveDelete => exact limit_mapLive _ 0
  | @refresh _ _ mine => exact limit_mapLive (fun _ => .new mine) o.failures
  | simulatedCreate => rfl
  | bookUpdate => rfl
  | bookLocal => rfl
  | bookDelete => rfl
  | failed => rfl

/-- Only a live create takes a slot, and it takes one. -/
theorem Does.used (h : Does out o action sent true after) (hrefresh : action ≠ .refresh) :
    after.used ≤ o.used + ((action.creates .sell).toNat + (action.creates .buy).toNat) := by
  have hupdate (id : String) (params : UpdateOrderParams) (l : OrderList) :
      (l.update id params).totalOrders ≤ l.totalOrders + 0 := (update_totalOrders l id params).le
  cases h with
  | liveCreate params =>
      refine used_mapLive (fun l => ?_) 0
      rw [add_totalOrders, Action.creates, Action.creates]
      cases params.orderType <;> exact Nat.le_refl _
  | liveUpdate params => exact used_mapLive (hupdate _ params) 0
  | liveLocal params => exact used_mapLive (hupdate _ params) o.failures
  | liveDelete => exact used_mapLive (fun l => removeById_totalOrders l _) 0
  | simulatedCreate => exact Nat.le_refl _
  | bookUpdate => exact Nat.le_refl _
  | bookLocal => exact Nat.le_refl _
  | bookDelete => exact Nat.le_refl _
  | refresh => exact absurd rfl hrefresh

theorem used_lt_of_canCreateBuy {reserve : Nat} (h : o.canCreateBuy reserve .live = true) :
    o.used + reserve < o.limit := by
  unfold TradeOrders.canCreateBuy at h
  unfold TradeOrders.used TradeOrders.limit
  cases hlive : o.live with
  | none =>
      rw [hlive] at h
      cases h
  | some client =>
      rw [hlive] at h
      exact of_decide_eq_true h

theorem limit_le_of_not_canCreateOrder (h : o.canCreateOrder .live = false) : o.limit ≤ o.used := by
  unfold TradeOrders.canCreateOrder at h
  unfold TradeOrders.used TradeOrders.limit
  cases hlive : o.live with
  | none => exact Nat.le_refl _
  | some client =>
      rw [hlive] at h
      exact Nat.le_of_not_lt (of_decide_eq_false h)

end Slots

/-! ### What keeps the books -/

section Held

variable {E F α : Type} {out : Outside E} {l : Ledger} {m : Nat} {counting : Bool} {w t : World E} {action : Action}

theorem tally_concat (counts : ItemEntry → Bool) (steps : List Step) (step : Step) :
    tally counts (steps ++ [step]) = (tally counts steps).step counts step := by
  rw [tally, List.foldl_append]
  rfl

theorem spares_of_isRefresh {step : Step} (h : step.IsRefresh) : step.Spares l := by
  cases step with
  | write write => trivial
  | lookup => cases h
  | turn => cases h
  | blocked => cases h

theorem Tallied.mono {m' : Nat} {orders : TradeOrders} {steps : List Step} (h : Tallied l m counting orders steps)
    (hm : m ≤ m') : Tallied l m' counting orders steps := ⟨h.room, h.counted.trans hm, h.counting, h.reserves⟩

theorem Held.mono {m' : Nat} {orders : TradeOrders} {trace : List Step} (h : Held l m counting orders trace)
    (hm : m ≤ m') : Held l m' counting orders trace := by
  obtain ⟨steps, htrace, hspares, htallied⟩ := h
  exact ⟨steps, htrace, hspares, fun hfree hsucceeded => (htallied hfree hsucceeded).mono hm⟩

/-- A step that is no write. -/
theorem Held.noted {counting' : Bool} {orders : TradeOrders} {trace : List Step} (h : Held l m counting orders trace)
    {step : Step} (hspares : step.Spares l)
    (htally : ∀ t : Tally, t.counting = counting → t.step l.counts step = { t with counting := counting' })
    (hreserves : ∀ steps, Tallied l m counting orders steps → step.Reserves l steps) :
    Held l m counting' orders (trace ++ [step]) := by
  obtain ⟨steps, rfl, hold, htallied⟩ := h
  refine ⟨steps ++ [step], List.append_assoc _ _ _, ?_, fun hfree hsucceeded => ?_⟩
  · exact List.forall_mem_append.mpr ⟨hold, List.forall_mem_singleton.mpr hspares⟩
  · have hthen := htallied hfree fun s hs => hsucceeded s (List.mem_append_left _ hs)
    have hstep := htally _ hthen.counting
    rw [← tally_concat] at hstep
    refine ⟨?_, ?_, ?_, throughout_concat.mpr ⟨hthen.reserves, hreserves steps hthen⟩⟩
    · rw [hstep]
      exact hthen.room
    · rw [hstep]
      exact hthen.counted
    · rw [hstep]

/-- A write that succeeds; a buy leaves free what the backlog counts. -/
theorem Tallied.write {orders after : TradeOrders} {steps : List Step} (h : Tallied l m counting orders steps)
    {sent : Bool} {entry : Option Bool} (hdoes : Does out.toOrdersOutside orders action sent true after)
    (hrefresh : action ≠ .refresh) (hbuy : action.creates .buy = true → orders.used + l.backlog < orders.limit) :
    Tallied l (m + (action.creates .sell && counting).toNat) counting after
      (steps ++ [.write ⟨action, sent, entry, true, after⟩]) := by
  have hlimit := hdoes.limit
  have hused := hdoes.used hrefresh
  have hroom := h.room
  have hcounted := h.counted
  have hcounting := h.counting
  have hstep := tally_concat l.counts steps (.write ⟨action, sent, entry, true, after⟩)
  rw [Tally.step, Bool.and_true] at hstep
  have hnow : (0 < l.backlog → after.used + l.backlog ≤ after.limit +
      (tally l.counts (steps ++ [.write ⟨action, sent, entry, true, after⟩])).counted +
      (tally l.counts (steps ++ [.write ⟨action, sent, entry, true, after⟩])).others) ∧
      (tally l.counts (steps ++ [.write ⟨action, sent, entry, true, after⟩])).counted ≤
        m + (action.creates .sell && counting).toNat ∧
      (tally l.counts (steps ++ [.write ⟨action, sent, entry, true, after⟩])).counting = counting := by
    rw [hstep]
    cases hsell : action.creates .sell with
    | true =>
        have hnobuy : action.creates .buy = false := by
          cases action with
          | create params route =>
              cases route with
              | live =>
                  rw [Action.creates] at hsell ⊢
                  rw [of_decide_eq_true hsell]
                  rfl
              | dryRun => cases hsell
          | update => cases hsell
          | updateLocal => cases hsell
          | delete => cases hsell
          | refresh => cases hsell
        rw [hsell, hnobuy] at hused
        rw [if_pos rfl, hcounting]
        cases counting with
        | true =>
            simp only [if_true, Bool.toNat_true, Bool.toNat_false, Bool.and_true] at hused ⊢
            exact ⟨by omega, by omega, trivial⟩
        | false =>
            simp only [Bool.false_eq_true, if_false, Bool.toNat_true, Bool.toNat_false, Bool.and_false] at hused ⊢
            exact ⟨by omega, by omega, trivial⟩
    | false =>
        rw [hsell] at hused
        simp only [Bool.false_eq_true, if_false, Bool.toNat_false, Bool.false_and] at hused ⊢
        refine ⟨?_, by omega, hcounting⟩
        cases hbuys : action.creates .buy with
        | true =>
            have := hbuy hbuys
            rw [hbuys, Bool.toNat_true] at hused
            omega
        | false =>
            rw [hbuys, Bool.toNat_false] at hused
            omega
  obtain ⟨hroom', hcounted', hcounting'⟩ := hnow
  refine ⟨hroom', hcounted', hcounting', throughout_concat.mpr ⟨h.reserves, ?_⟩⟩
  change l.backlog - _ ≤ after.limit - after.used + _
  omega

theorem Held.wrote (h : Held l m counting w.orders w.trace) (hwrote : Wrote out.toOrdersOutside action w t)
    (hrefresh : action ≠ .refresh)
    (hbuy : action.creates .buy = true → w.orders.used + l.backlog < w.orders.limit) :
    Held l (m + (action.creates .sell && counting).toNat) counting t.orders t.trace := by
  obtain ⟨steps, htrace, hspares, htallied⟩ := h
  obtain ⟨sent, succeeded, after, rest, hdoes, htrace', hrest, hdone⟩ := hwrote.wrote
  refine ⟨steps ++ .write ⟨action, sent, w.processing, succeeded, after⟩ :: rest, ?_, ?_, fun hfree hsucceeded => ?_⟩
  · rw [htrace', htrace, List.append_assoc]
  · refine List.forall_mem_append.mpr ⟨hspares, List.forall_mem_cons.mpr ⟨trivial, fun step hstep => ?_⟩⟩
    exact spares_of_isRefresh (hrest step hstep)
  · obtain ⟨hold, hnew⟩ := List.forall_mem_append.mp hsucceeded
    have hwrite : succeeded = true := (List.forall_mem_cons.mp hnew).1
    subst hwrite
    obtain ⟨rfl, rfl⟩ := hdone rfl
    exact (htallied hfree hold).write hdoes hrefresh hbuy

/-! ### The programs -/

theorem Quiet.held {m' : TraderM E α} (hm : Quiet m') :
    Keeps (fun w => Held l m counting w.orders w.trace) m' :=
  hm fun desk => Held l m counting (desk none).orders (desk none).trace

theorem leastProfit_mem {orders : List Order} {o : Order} (h : leastProfit orders = some o) : o ∈ orders := by
  induction orders generalizing o with
  | nil => cases h
  | cons x orders ih =>
      rw [leastProfit] at h
      cases hrest : leastProfit orders with
      | none =>
          rw [hrest] at h
          cases h
          exact List.mem_cons_self
      | some y =>
          rw [hrest] at h
          dsimp only at h
          split at h
          next =>
            cases h
            exact List.mem_cons_of_mem _ (ih hrest)
          next =>
            cases h
            exact List.mem_cons_self

theorem spares_sellSlotVictim {orders : TradeOrders} (entry : ItemEntry) (route : Route) (orderType : OrderType) :
    (Step.blocked entry orderType route l.wishList (sellSlotVictim orders route orderType l.wishList)).Spares l := by
  cases hvictim : sellSlotVictim orders route orderType l.wishList with
  | none => trivial
  | some victim =>
      rw [sellSlotVictim] at hvictim
      split at hvictim
      next hsale =>
        obtain ⟨client, -, hleast⟩ := Option.bind_eq_some_iff.mp hvictim
        have hkeep := (List.mem_filter.mp (leastProfit_mem hleast)).2
        simp only [Bool.and_eq_true, Bool.not_eq_true', List.contains_eq_mem, decide_eq_false_iff_not] at hkeep
        exact ⟨hsale.2, hsale.1, rfl, hkeep.1, hkeep.2⟩
      next => cases hvictim

theorem getOrderInfo_held (entry : ItemEntry) (orderType : OrderType) (route : Route) :
    Keeps (fun w : World E => Held l m counting w.orders w.trace) (getOrderInfo entry orderType route) := by
  refine (Keeps.read _).bind fun orders => Keeps.bind (.change fun w h => ?_) fun _ => .pure _
  exact h.noted trivial (fun t ht => by rw [Tally.step, ← ht]) fun _ _ => trivial

theorem freeSlot_held (entry : ItemEntry) (route : Route) (orderType : OrderType) {slots : Slots}
    (hslots : slots.wishList = l.wishList)
    (hblocked : orderType = .sell → route = .live → l.counts entry = true →
      w.orders.canCreateOrder .live = false ∧ m < l.backlog)
    (h : Held l m counting w.orders w.trace) :
    (freeSlot out.toOrdersOutside entry route orderType slots).wp
      (fun r t => (orderType = .buy → r = .ok false ∧ t.orders = w.orders) ∧ Held l m counting t.orders t.trace) w := by
  rw [freeSlot, wp_bind, wp_read, next_ok]
  dsimp only
  rw [wp_bind, wp_change, next_ok, hslots]
  have hnoted : Held l m counting w.orders
      (w.trace ++ [.blocked entry orderType route l.wishList (sellSlotVictim w.orders route orderType l.wishList)]) := by
    refine h.noted (spares_sellSlotVictim entry route orderType) (fun t ht => by rw [Tally.step, ← ht]) ?_
    intro steps htallied hsell hlive hcounts
    obtain ⟨hfull, hm⟩ := hblocked hsell hlive hcounts
    have hroom := htallied.room
    have hcounted := htallied.counted
    have := limit_le_of_not_canCreateOrder hfull
    omega
  cases hvictim : sellSlotVictim w.orders route orderType l.wishList with
  | none =>
      rw [hvictim] at hnoted
      exact ⟨fun _ => ⟨rfl, rfl⟩, hnoted⟩
  | some victim =>
      rw [hvictim] at hnoted
      have hsell : orderType = .sell := by
        rw [sellSlotVictim] at hvictim
        split at hvictim
        next hsale => exact hsale.2
        next => cases hvictim
      subst hsell
      show wp (attempt (delete out.toOrdersOutside victim.id) >>= _) _ _
      rw [wp_bind, wp_attempt]
      refine wp_mono (delete_wrote _ victim.id _) fun r t hwrote => ?_
      have hdeleted := Held.wrote hnoted hwrote (fun h => by cases h) fun h => by cases h
      cases r with
      | ok => exact ⟨(fun h => by cases h), hdeleted⟩
      | error e => exact ⟨(fun h => by cases h), hdeleted⟩

theorem writeOrder_held (entry : ItemEntry) (route : Route) (orderType : OrderType) (postPrice : Nat)
    (perTrade : Option Int) (properties : Properties) (operations : OperationSet) {canCreateOrder : Bool}
    (hgate : OperationSet.has operations "Delete" = false → canCreateOrder = true → orderType = .buy →
      route = .live → w.orders.used + l.backlog < w.orders.limit)
    (h : Held l m counting w.orders w.trace) :
    (writeOrder out.toOrdersOutside entry route orderType postPrice perTrade properties operations canCreateOrder).wp
      (fun _ t => Held l (m + (decide (orderType = .sell) && counting).toNat) counting t.orders t.trace) w := by
  have hkept {action : Action} {t : World E} (hwrote : Wrote out.toOrdersOutside action w t)
      (hrefresh : action ≠ .refresh) (hbuy : action.creates .buy ≠ true) (hsell : action.creates .sell = false) :
      Held l (m + (decide (orderType = .sell) && counting).toNat) counting t.orders t.trace := by
    have hheld := h.wrote hwrote hrefresh fun hcreates => absurd hcreates hbuy
    rw [hsell] at hheld
    exact hheld.mono (Nat.le_add_right _ _)
  rw [writeOrder, wp_ite]
  refine ⟨fun hcreates => ?_, fun _ => ?_⟩
  · simp only [Bool.and_eq_true, Bool.not_eq_true'] at hcreates
    obtain ⟨⟨-, hdelete⟩, hcan⟩ := hcreates
    have hcreated : (create out.toOrdersOutside (createParams entry orderType postPrice perTrade properties) route).wp
        (fun _ t => Held l (m + (decide (orderType = .sell) && counting).toNat) counting t.orders t.trace) w := by
      refine wp_mono (create_wrote _ _ route w) fun _ t hwrote => ?_
      refine (h.wrote hwrote (fun h => by cases h) fun hbuy => ?_).mono ?_
      · cases route with
        | live => exact hgate hdelete hcan (of_decide_eq_true hbuy) rfl
        | dryRun => cases hbuy
      · cases route with
        | live => exact Nat.le_refl _
        | dryRun => exact Nat.le_add_right _ _
    exact wp_seq hcreated (fun _ _ ht => ht) fun _ _ ht => ht
  · rw [wp_ite]
    refine ⟨fun _ => ?_, fun _ => ?_⟩
    · rw [wp_bind, wp_read, next_ok, wp_ite]
      refine ⟨fun _ => ?_, fun _ => ?_⟩
      · exact wp_mono (updateLocal_wrote out.toOrdersOutside _ _ w) fun _ _ hwrote =>
          hkept hwrote (fun h => by cases h) (fun h => by cases h) rfl
      · exact wp_seq (wp_mono (update_wrote _ _ _ w) fun _ _ hwrote =>
            hkept hwrote (fun h => by cases h) (fun h => by cases h) rfl)
          (fun _ _ ht => ht) fun _ _ ht => ht
    · rw [wp_ite]
      refine ⟨fun _ => ?_, fun _ => h.mono (Nat.le_add_right _ _)⟩
      exact wp_seq (wp_mono (delete_wrote _ _ w) fun _ _ hwrote =>
          hkept hwrote (fun h => by cases h) (fun h => by cases h) rfl)
        (fun _ _ ht => ht) fun _ _ ht => ht

/-- The slots of a cycle are those its ledger tells. -/
structure Ledger.Plans (l : Ledger) (slots : Slots) : Prop where
  backlog : slots.sellBacklog = l.backlog
  wishList : slots.wishList = l.wishList

theorem progressOrder_buy_held (entry : ItemEntry) (route : Route) (postPrice : Nat) (perTrade : Option Int)
    (properties : Properties) {operations : OperationSet} {slots : Slots}
    (hslots : OperationSet.has operations "Delete" = false → l.Plans slots) :
    Keeps (fun w => Held l m counting w.orders w.trace)
      (progressOrder out.toOrdersOutside entry route .buy postPrice perTrade properties operations slots) := by
  intro w h
  have hwrite {can : Bool} {t : World E} (ht : Held l m counting t.orders t.trace)
      (hgate : OperationSet.has operations "Delete" = false → can = true → route = .live →
        t.orders.used + l.backlog < t.orders.limit) :
      (writeOrder out.toOrdersOutside entry route .buy postPrice perTrade properties operations can).wp
        (fun _ t => Held l m counting t.orders t.trace) t :=
    writeOrder_held entry route .buy postPrice perTrade properties operations
      (fun hdelete hcan _ => hgate hdelete hcan) ht
  rw [progressOrder, wp_bind, wp_read, next_ok, wp_ite]
  refine ⟨fun hblocked => ?_, fun _ => ?_⟩
  · simp only [Bool.and_eq_true, Bool.not_eq_true'] at hblocked
    obtain ⟨⟨-, hdelete⟩, hfull⟩ := hblocked
    rw [wp_bind]
    refine wp_mono (freeSlot_held entry route .buy (hslots hdelete).wishList (fun h => by cases h) h) fun r t ht => ?_
    obtain ⟨hidle, ht⟩ := ht
    obtain ⟨rfl, -⟩ := hidle rfl
    refine hwrite ht fun _ hcan => ?_
    rw [hfull] at hcan
    cases hcan
  · refine hwrite h fun hdelete hcan hlive => ?_
    subst hlive
    rw [Bool.or_false] at hcan
    have hfree := used_lt_of_canCreateBuy hcan
    rw [(hslots hdelete).backlog] at hfree
    omega

theorem progressOrder_sell_held (entry : ItemEntry) (route : Route) (postPrice : Nat) (perTrade : Option Int)
    (properties : Properties) (operations : OperationSet) {slots : Slots} (hslots : l.Plans slots)
    (hm : l.counts entry = true → m < l.backlog) (h : Held l m (l.counts entry) w.orders w.trace) :
    (progressOrder out.toOrdersOutside entry route .sell postPrice perTrade properties operations slots).wp
      (fun _ t => Held l (m + (l.counts entry).toNat) (l.counts entry) t.orders t.trace) w := by
  have hwrite {can : Bool} {t : World E} (ht : Held l m (l.counts entry) t.orders t.trace) :
      (writeOrder out.toOrdersOutside entry route .sell postPrice perTrade properties operations can).wp
        (fun _ t => Held l (m + (l.counts entry).toNat) (l.counts entry) t.orders t.trace) t :=
    writeOrder_held entry route .sell postPrice perTrade properties operations (fun _ _ hbuy => by cases hbuy) ht
  rw [progressOrder, wp_bind, wp_read, next_ok, wp_ite]
  refine ⟨fun hblocked => ?_, fun _ => hwrite h⟩
  have hfull : w.orders.canCreateOrder route = false := by
    simpa using (Bool.and_eq_true_iff.mp hblocked).2
  have hfreed : (freeSlot out.toOrdersOutside entry route .sell slots).wp
      (fun _ t => Held l m (l.counts entry) t.orders t.trace) w := by
    refine wp_mono (freeSlot_held entry route .sell hslots.wishList (fun _ hlive hcounts => ?_) h) fun _ _ ht => ht.2
    subst hlive
    exact ⟨hfull, hm hcounts⟩
  exact wp_seq hfreed (fun _ _ ht => hwrite ht) fun _ _ ht =>
    ht.mono (Nat.le_add_right _ _)

theorem deleteOrder_held (entry : ItemEntry) (route : Route) (reason : String) :
    Keeps (fun w => Held l m counting w.orders w.trace)
      (deleteOrder out.toOrdersOutside entry .buy route reason) := by
  refine (getOrderInfo_held entry .buy route).bind fun info => .ite (fun _ => .pure ()) fun _ => ?_
  refine progressOrder_buy_held entry route 1 none _ fun hdelete => ?_
  rw [OperationSet.ofList, List.foldl_cons, List.foldl_cons, List.foldl_cons] at hdelete
  simp [OperationSet.has_add] at hdelete

end Held

/-! ### The workflows -/

section Workflows

variable {E F : Type} {num : PriceFloats F} {out : Outside E} {ctx : TradeContext F} {l : Ledger} {m : Nat}
  {counting : Bool} {slots : Slots}

theorem progressBuying_held (hslots : l.Plans slots) (itemInfo : CacheTradableItem) (entry : ItemEntry)
    (price : ItemPriceInfo F) (live : LiveOrders) (route : Route) :
    Keeps (fun w => Held l m counting w.orders w.trace)
      (progressBuying num out ctx itemInfo entry price live route slots) := by
  rw [progressBuying]
  refine .ite (fun _ => .pure ()) fun _ => (getOrderInfo_held entry .buy route).bind fun info => ?_
  refine .ite (fun _ => deleteOrder_held entry route _) fun _ => (quiet_stockIsFull entry).held.bind fun full => ?_
  refine .ite (fun _ => deleteOrder_held entry route _) fun _ => (Keeps.read _).bind fun orders => ?_
  exact .ite (fun _ => .pure ()) fun _ => progressOrder_buy_held entry route _ _ _ fun _ => hslots

theorem progressWishList_held (hslots : l.Plans slots) (itemInfo : CacheTradableItem) (entry : ItemEntry)
    (price : ItemPriceInfo F) (route : Route) :
    Keeps (fun w => Held l m counting w.orders w.trace)
      (progressWishList num out ctx itemInfo entry price route slots) := by
  rw [progressWishList]
  refine .ite (fun _ => .pure ()) fun _ => (quiet_getWishListItem entry).held.bind fun row => ?_
  cases row with
  | none => exact .pure ()
  | some item =>
      refine (getOrderInfo_held entry .buy route).bind fun info => .ite (fun _ => .pure ()) fun _ => ?_
      exact (progressOrder_buy_held entry route _ _ _ fun _ => hslots).bind fun _ =>
        (quiet_finalizeWishListItem _).held

/-- A sale creates at most one order. -/
theorem progressSelling_held (hslots : l.Plans slots) (itemInfo : CacheTradableItem) {entry : ItemEntry}
    (price : ItemPriceInfo F) (live : LiveOrders) (route : Route) (hm : l.counts entry = true → m < l.backlog)
    {w : World E} (h : Held l m (l.counts entry) w.orders w.trace) :
    (progressSelling num out ctx itemInfo entry price live route slots).wp
      (fun _ t => Held l (m + (l.counts entry).toNat) (l.counts entry) t.orders t.trace) w := by
  have hnone : ∀ t : World E, Held l m (l.counts entry) t.orders t.trace →
      Held l (m + (l.counts entry).toNat) (l.counts entry) t.orders t.trace :=
    fun t ht => ht.mono (Nat.le_add_right _ _)
  rw [progressSelling, wp_ite]
  refine ⟨fun _ => hnone w h, fun _ => ?_⟩
  refine wp_seq ((quiet_getStockItem entry).held w h) (fun row t ht => ?_) fun _ t ht => hnone t ht
  cases row with
  | none => exact hnone t ht
  | some stockItem =>
      refine wp_seq (getOrderInfo_held entry .sell route t ht) (fun info u hu => ?_) fun _ u hu => hnone u hu
      rw [wp_ite]
      refine ⟨fun _ => hnone u hu, fun _ => ?_⟩
      refine wp_seq (progressOrder_sell_held entry route _ _ _ _ hslots hm hu) (fun _ v hv => ?_) fun _ _ hv => hv
      exact (quiet_finalizeStockItem _).held v hv

theorem progressEntry_held (hslots : l.Plans slots) (itemInfo : CacheTradableItem) {entry : ItemEntry}
    (price : ItemPriceInfo F) (live : LiveOrders) (route : Route) (hm : l.counts entry = true → m < l.backlog)
    {w : World E} (h : Held l m (l.counts entry) w.orders w.trace) :
    (progressEntry num out ctx itemInfo entry price live route slots).wp
      (fun _ t => Held l (m + (l.counts entry).toNat) (l.counts entry) t.orders t.trace) w := by
  have hnone : ∀ t : World E, Held l m (l.counts entry) t.orders t.trace →
      Held l (m + (l.counts entry).toNat) (l.counts entry) t.orders t.trace :=
    fun t ht => ht.mono (Nat.le_add_right _ _)
  have hsell {t : World E} (ht : Held l m (l.counts entry) t.orders t.trace) :
      (if OperationSet.has entry.operations "Sell" && entry.stockId.isSome then
        progressSelling num out ctx itemInfo entry price live route slots else pure ()).wp
        (fun _ t => Held l (m + (l.counts entry).toNat) (l.counts entry) t.orders t.trace) t := by
    rw [wp_ite]
    exact ⟨fun _ => progressSelling_held hslots itemInfo price live route hm ht, fun _ => hnone t ht⟩
  have hwish {t : World E} (ht : Held l m (l.counts entry) t.orders t.trace) :
      (progressWishList num out ctx itemInfo entry price route slots >>= fun _ =>
        if OperationSet.has entry.operations "Sell" && entry.stockId.isSome then
          progressSelling num out ctx itemInfo entry price live route slots else pure ()).wp
        (fun _ t => Held l (m + (l.counts entry).toNat) (l.counts entry) t.orders t.trace) t :=
    wp_seq (progressWishList_held hslots itemInfo entry price route t ht) (fun _ _ hu => hsell hu)
      fun _ u hu => hnone u hu
  rw [progressEntry, wp_ite]
  refine ⟨fun _ => ?_, fun _ => ?_⟩
  · refine wp_seq (progressBuying_held hslots itemInfo entry price live route w h) (fun _ t ht => ?_)
      fun _ t ht => hnone t ht
    rw [wp_ite]
    exact ⟨fun _ => hwish ht, fun _ => hsell ht⟩
  · rw [wp_ite]
    exact ⟨fun _ => hwish h, fun _ => hsell h⟩

/-- The prices that an entry reads from the market change nothing that the backlog counts. -/
def Ledger.ByKey (l : Ledger) : Prop := ∀ entry live, l.counts (ItemEntry.applyMarketInfo entry live) = l.counts entry

theorem processEntry_held (hkey : l.ByKey) (hslots : l.Plans slots) {entry : ItemEntry}
    (hm : l.counts entry = true → m < l.backlog) {w : World E} (h : Held l m counting w.orders w.trace) :
    (processEntry num out ctx slots entry).wp
      (fun _ t => ∃ counting, Held l (m + (l.counts entry).toNat) counting t.orders t.trace) w := by
  rw [processEntry]
  cases ctx.tradable entry.wfmUrl with
  | none => exact ⟨counting, h.mono (Nat.le_add_right _ _)⟩
  | some itemInfo =>
      dsimp only
      rw [wp_bind, wp_read, next_ok, turnTo, wp_bind, wp_change, next_ok]
      have hturned : Held l m (l.counts entry) w.orders (w.trace ++ [.turn entry]) :=
        h.noted trivial (fun t _ => rfl) fun _ _ => trivial
      refine wp_seq ((quiet_demand (out.liveOrders entry.wfmUrl)).held _ hturned) (fun live t ht => ?_)
        fun _ t ht => ⟨_, ht.mono (Nat.le_add_right _ _)⟩
      rw [← hkey entry (readBook ctx entry live)] at ht hm ⊢
      refine wp_seq (progressEntry_held hslots itemInfo _ _ _ hm ht) (fun _ u hu => ?_) fun _ u hu => ⟨_, hu⟩
      exact ⟨_, hu⟩

/-- The entries done so far, and what they have created. -/
def Ledger.Running (l : Ledger) (done : List ItemEntry) (w : World E) : Prop :=
  ∃ counting, Held l (done.countP l.counts) counting w.orders w.trace

theorem eachEntry_held (hkey : l.ByKey) (hslots : l.Plans slots) {entries : List ItemEntry}
    (hbacklog : l.backlog = entries.countP l.counts) {w : World E} (h : Held l 0 counting w.orders w.trace) :
    (eachUntil (shouldStop out ctx) entries (processEntry num out ctx slots)).wp
      (fun _ t => ∃ counting, Held l l.backlog counting t.orders t.trace) w := by
  have hstop (done : List ItemEntry) : Keeps (l.Running done) (shouldStop out ctx) := by
    rintro t ⟨counting, ht⟩
    exact wp_mono (shouldStop_quiet.held t ht) fun _ _ hu => ⟨counting, hu⟩
  refine wp_mono (wp_eachUntil hstop (fun done entry rest hsplit t ht => ?_) ⟨counting, h⟩) ?_
  · obtain ⟨counting, ht⟩ := ht
    have htotal : l.backlog = done.countP l.counts + (rest.countP l.counts + (l.counts entry).toNat) := by
      rw [hbacklog, hsplit, List.countP_append, List.countP_cons]
      cases l.counts entry <;> rfl
    refine wp_mono (processEntry_held hkey hslots (fun hcounts => ?_) ht) fun _ u hu => ?_
    · rw [hcounts, Bool.toNat_true] at htotal
      omega
    · obtain ⟨counting', hu⟩ := hu
      refine ⟨counting', hu.mono ?_⟩
      rw [List.countP_append, List.countP_singleton]
      cases l.counts entry <;> exact Nat.le_refl _
  · rintro _ t ⟨done, ⟨rest, hsplit⟩, counting, ht⟩
    refine ⟨counting, ht.mono ?_⟩
    rw [hbacklog, ← hsplit, List.countP_append]
    exact Nat.le_add_right _ _

theorem tryDelete_held (id : String) : Keeps (fun w => Held l m counting w.orders w.trace) (tryDelete out id) := by
  have hdelete : Keeps (fun w => Held l m counting w.orders w.trace) (delete out.toOrdersOutside id) :=
    fun w h => wp_mono (delete_wrote _ id w) fun _ t hwrote => h.wrote hwrote nofun nofun
  exact hdelete.attempt.bind fun _ => .pure ()

theorem holdCap_held (existing : List String) :
    Keeps (fun w => Held l m counting w.orders w.trace) (holdCap num out ctx existing) := by
  refine (Keeps.read _).bind fun orders => .ite (fun _ => ?_) fun _ => .pure ()
  exact .each fun order _ => .ite (fun _ => .pure ()) fun _ => tryDelete_held order.id

theorem sweepOrphans_held (entries : List ItemEntry) :
    Keeps (fun w => Held l m counting w.orders w.trace) (sweepOrphans out ctx entries) := by
  refine (quiet_ask _).held.bind fun now => (Keeps.read _).bind fun orders => (Keeps.read _).bind fun seen => ?_
  exact Keeps.bind (.change fun w h => h) fun _ => .each fun id _ => tryDelete_held id

/-- The ledger of a cycle. -/
def cycleLedger (ctx : TradeContext F) (entries : List ItemEntry) (wishList : List (String × String))
    (w : World E) : Ledger where
  before := w.trace
  start := w.orders
  backlog := sellBacklog ctx w.orders entries
  counts := ItemEntry.isCounted ctx w.orders
  wishList := wishList

theorem held_start (ctx : TradeContext F) (entries : List ItemEntry) (wishList : List (String × String))
    (w : World E) : Held (cycleLedger ctx entries wishList w) 0 false w.orders w.trace := by
  refine ⟨[], (List.append_nil _).symm, (fun _ hstep => by cases hstep), fun hfree _ => ?_⟩
  refine ⟨fun hpos => ?_, Nat.le_refl 0, rfl, throughout_nil⟩
  have hfree : (cycleLedger ctx entries wishList w).backlog ≤ w.orders.limit - w.orders.used := hfree
  omega

theorem processItems_held {items : List ItemEntry} {w : World E} {wishList : List (String × String)}
    (hkeys : (out.wishListKeys w.ext).1 = .ok wishList) :
    (processItems num out ctx items).wp (fun _ t => ∃ counting,
      Held (cycleLedger ctx (byPriority items) wishList w)
        (cycleLedger ctx (byPriority items) wishList w).backlog counting t.orders t.trace) w := by
  have hentries : (processEntries num out ctx (byPriority items)).wp (fun _ t => ∃ counting,
      Held (cycleLedger ctx (byPriority items) wishList w)
        (cycleLedger ctx (byPriority items) wishList w).backlog counting t.orders t.trace) w := by
    rw [processEntries, wp_bind, wp_read, next_ok, demand, wp_bind, wp_bind, ask, wp_act, next_ok, hkeys]
    dsimp only
    rw [wp_pure, next_ok]
    have hstart := held_start ctx (byPriority items) wishList w
    refine wp_seq (eachEntry_held (fun entry live => rfl) ⟨rfl, rfl⟩ rfl hstart) (fun _ t ht => ?_) fun _ t ht => ht
    exact ht
  refine wp_seq hentries (fun outcome t ht => ?_) fun _ t ht => ht
  obtain ⟨counting, ht⟩ := ht
  refine wp_seq (holdCap_held _ t ht) (fun _ u hu => ?_) fun _ u hu => ⟨counting, hu⟩
  rw [wp_ite]
  refine ⟨fun _ => ?_, fun _ => ⟨counting, hu⟩⟩
  exact wp_seq (sweepOrphans_held _ u hu) (fun _ v hv => ⟨counting, hv⟩) fun _ v hv => ⟨counting, hv⟩

/-- In every cycle only a live sale has a buy order make room for it, and never a bid of the wish-list. In a
cycle that starts with a free slot for each counted entry, and while no write fails, the free slots fall short of
the counted entries that wait for their order at most by the live sell orders that other entries have created. -/
theorem live_sells_not_crowded_out (num : PriceFloats F) (out : Outside E) (ctx : TradeContext F)
    (items : List ItemEntry) (w : World E) {wishList : List (String × String)}
    (hkeys : (out.wishListKeys w.ext).1 = .ok wishList) :
    ∃ steps, ((processItems num out ctx items).exec w).2.trace = w.trace ++ steps ∧
      (∀ step ∈ steps, step.Spares (cycleLedger ctx (byPriority items) wishList w)) ∧
      (sellBacklog ctx w.orders (byPriority items) ≤ w.orders.freeSlots → (∀ step ∈ steps, step.Succeeded) →
        Throughout (Step.Reserves (cycleLedger ctx (byPriority items) wishList w)) steps) := by
  have hheld : (processItems num out ctx items).wp _ w := processItems_held hkeys
  obtain ⟨counting, steps, htrace, hspares, htallied⟩ := hheld
  exact ⟨steps, htrace, hspares, fun hfree hsucceeded => (htallied hfree hsucceeded).reserves⟩

end Workflows

/-! ### Sales that the backlog does not count -/

def ItemEntry.sale (stockId : Int) (wfmId : String) : ItemEntry :=
  { stockId := some stockId, wfmUrl := wfmId, wfmId := wfmId, sellQuantity := 1, operations := ["Sell"] }

/-- A willing market, and a stock of which the rows up to `hidden` are hidden. -/
def Outside.selling (hidden : Int) : Outside Nat :=
  { Outside.willing [] .spread with
    stockItem := fun id n =>
      (.ok (some ⟨id, 10, 1, none, { listPrice := none, status := .live, isHidden := decide (id ≤ hidden) }, [], none,
        some 20, none, none⟩), n) }

/-- The client holds a sell order of each item, and may hold 7 orders. -/
def World.selling (items : List String) : World Nat :=
  .start (.new (some ⟨.new (items.map fun id =>
    { simulatedOrder id ⟨id, .sell, 20, 1, true, none, none, none⟩ with id := id }), 7⟩) false) 0

def TradeContext.warm : TradeContext Int := .sample .plain true

theorem live_sells_not_crowded_out_prism :
    Throughout
      (Step.Reserves (cycleLedger .warm (byPriority [.bid "lens", .sale 7 "prism"]) []
        (World.selling ["a", "b", "c", "d", "e"])))
      ((processItems .whole (.selling 6) .warm [.bid "lens", .sale 7 "prism"]).exec
        (World.selling ["a", "b", "c", "d", "e"])).2.trace := by
  obtain ⟨steps, htrace, -, hreserves⟩ := live_sells_not_crowded_out .whole (.selling 6) .warm
    [.bid "lens", .sale 7 "prism"] (World.selling ["a", "b", "c", "d", "e"]) rfl
  have hsteps : steps = ((processItems .whole (.selling 6) .warm [.bid "lens", .sale 7 "prism"]).exec
      (World.selling ["a", "b", "c", "d", "e"])).2.trace := htrace.symm
  rw [← hsteps]
  refine hreserves (by decide +kernel) ?_
  rw [hsteps]
  decide +kernel

namespace Crowded

/-- Six rows are hidden and take their orders off the market, a bid takes a slot, and six rows of the same
items take the rest. -/
def items : List ItemEntry :=
  (["a", "b", "c", "d", "e", "f"].mapIdx fun i item => .sale (i + 1) item) ++ [.bid "lens"] ++
    (["a", "b", "c", "d", "e", "f"].mapIdx fun i item => .sale (i + 7) item) ++ [.sale 13 "prism"]

def start : World Nat := .selling ["a", "b", "c", "d", "e", "f"]

def trace : List Step := ((processItems .whole (.selling 6) .warm items).exec start).2.trace

def backlog : Nat := sellBacklog .warm start.orders (byPriority items)

def counts (entry : ItemEntry) : Bool := entry.isCounted .warm start.orders

/-- The last write leaves fewer free slots than the sales still to come. -/
def shortAfter (steps : List Step) : Bool :=
  match steps.getLast? with
  | some (.write write) => decide (write.orders.freeSlots < backlog - (tally counts steps).counted)
  | _ => false

/-- A counted sale finds no slot and takes a victim's. -/
def displaces : Step → Bool
  | .blocked entry .sell .live _ (some _) => counts entry
  | _ => false

/-- The counted sale is left no slot, and the bid makes room for it. -/
theorem counted_sale_has_no_slot :
    backlog ≤ start.orders.freeSlots ∧ (∀ step ∈ trace, step.Succeeded) ∧
    (∃ steps write, steps ++ [.write write] <+: trace ∧
      write.orders.freeSlots < backlog - (tally counts (steps ++ [.write write])).counted) ∧
    ∃ entry wishList victim, .blocked entry .sell .live wishList (some victim) ∈ trace ∧ counts entry = true := by
  have hshort : trace.inits.any shortAfter = true := by decide +kernel
  have hblocked : trace.any displaces = true := by decide +kernel
  refine ⟨by decide +kernel, by decide +kernel, ?_, ?_⟩
  · obtain ⟨steps, hsteps, hlast⟩ := List.any_eq_true.mp hshort
    rw [shortAfter] at hlast
    split at hlast
    next write hwrite =>
      obtain ⟨earlier, rfl⟩ := List.getLast?_eq_some_iff.mp hwrite
      exact ⟨earlier, write, (List.mem_inits _ _).mp hsteps, of_decide_eq_true hlast⟩
    next => cases hlast
  · obtain ⟨step, hstep, hcounts⟩ := List.any_eq_true.mp hblocked
    rw [displaces.eq_def] at hcounts
    split at hcounts
    next entry wishList victim => exact ⟨entry, wishList, victim, hstep, hcounts⟩
    next => cases hcounts

end Crowded

end Quantframe.Trader
