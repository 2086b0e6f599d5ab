import Quantframe.Market.Cache
import Quantframe.Trader.Writes

/-!
# Skipped updates

An update that would change nothing is applied to the cache and not sent. Beside the write of an entry stands
the write that sends every update, and the two leave the same cache behind.
-/

namespace Quantframe.Trader

open Lib Lib.Effect Market
open Handlers (OperationSet)
open Trades (Error)

/-! ### An update of the cache -/

namespace TradeOrders

/-- An update applied to the orders that hold its id. -/
def applied (o : TradeOrders) (orderId : String) (params : UpdateOrderParams) : TradeOrders :=
  if o.inBook orderId then { o with book := o.book.update orderId params }
  else o.mapLive fun list => list.update orderId params

theorem applied_of_inBook {o : TradeOrders} {id : String} (hbook : o.inBook id = true) (params : UpdateOrderParams) :
    o.applied id params = { o with book := o.book.update id params } := if_pos hbook

theorem applied_of_live {o : TradeOrders} {id : String} (hbook : o.inBook id = false) (params : UpdateOrderParams) :
    o.applied id params = o.mapLive fun list => list.update id params := if_neg (Bool.eq_false_iff.mp hbook)

theorem absent_of_not_inBook {o : TradeOrders} {id : String} (hbook : o.inBook id = false) :
    ∀ x ∈ o.book.toVec, x.id ≠ id := by
  rw [inBook, Bool.or_eq_false_iff, Option.isSome_eq_false_iff, Option.isNone_iff_eq_none] at hbook
  intro x hx hid
  exact List.find?_eq_none.mp hbook.2 x hx (decide_eq_true hid)

/-- With a client the update goes through the orders of the client and of the book alike. -/
theorem applied_merged {client : OrderRoute} {book : OrderList} {failures : Nat} {id : String}
    (hids : ((client.orders.toVec ++ book.toVec).map Order.id).Nodup) (params : UpdateOrderParams) :
    ((TradeOrders.mk (some client) false book failures).applied id params).cacheOrders =
      .new ((client.orders.toVec ++ book.toVec).map fun x => if x.id = id then x.update params else x) := by
  rw [List.map_append] at hids ⊢
  obtain ⟨hlive, hbook, hdisjoint⟩ := List.nodup_append.mp hids
  cases hinBook : (TradeOrders.mk (some client) false book failures).inBook id with
  | true =>
      obtain ⟨x, hfound⟩ := Option.isSome_iff_exists.mp (hinBook : (book.getById id).isSome = true)
      have hx : x ∈ book.toVec := List.mem_of_find?_eq_some hfound
      have hxid : x.id = id := by simpa using List.find?_some (l := book.toVec) hfound
      have habsent : ∀ y ∈ client.orders.toVec, y.id ≠ id := by
        intro y hy hyid
        refine hdisjoint _ (List.mem_map_of_mem hy) _ (List.mem_map_of_mem hx) ?_
        rw [hyid, hxid]
      rw [applied_of_inBook hinBook, OrderList.map_adjust_of_absent habsent,
        OrderList.update_eq_adjust hbook, ← OrderList.toVec_adjust]
      rfl
  | false =>
      rw [applied_of_live hinBook, OrderList.map_adjust_of_absent (absent_of_not_inBook hinBook),
        ← OrderList.toVec_adjust, ← OrderList.update_eq_adjust hlive]
      rfl

/-- With unique ids an update of a cached order that keeps its side and its price changes the order of that id and
moves none. -/
theorem applied_cacheOrders {o : TradeOrders} {id : String} {params : UpdateOrderParams}
    (hids : o.cacheOrders.IdsUnique) (hcached : (o.cacheOrders.getById id).isSome = true)
    (hprice : ∀ x ∈ o.cacheOrders.toVec, x.id = id → (x.update params).platinum = x.platinum) :
    (o.applied id params).cacheOrders = o.cacheOrders.adjust id fun x => x.update params := by
  obtain ⟨live, globalDryRun, book, failures⟩ := o
  have honly (horders : (TradeOrders.mk live globalDryRun book failures).cacheOrders = book)
      (hupdated : ∀ book', (TradeOrders.mk live globalDryRun book' failures).cacheOrders = book') :
      ((TradeOrders.mk live globalDryRun book failures).applied id params).cacheOrders =
        (TradeOrders.mk live globalDryRun book failures).cacheOrders.adjust id fun x => x.update params := by
    rw [horders] at hids hcached ⊢
    have hbook : (TradeOrders.mk live globalDryRun book failures).inBook id = true :=
      (congrArg (globalDryRun || ·) hcached).trans (Bool.or_true _)
    rw [applied_of_inBook hbook, hupdated]
    exact OrderList.update_eq_adjust hids id params
  cases live with
  | none => exact honly rfl fun _ => rfl
  | some client =>
      cases globalDryRun with
      | true => exact honly rfl fun _ => rfl
      | false =>
          have hperm : (OrderList.new (client.orders.toVec ++ book.toVec)).toVec.Perm
              (client.orders.toVec ++ book.toVec) := OrderList.new_toVec _
          rw [applied_merged ((hperm.map Order.id).nodup_iff.mp hids), OrderList.new_adjust]
          · rfl
          · intro x hx
            split
            next hid => rfl
            next => rfl
          · intro x hx
            split
            next hid => exact hprice x (hperm.mem_iff.mpr hx) hid
            next => rfl

end TradeOrders

/-! ### The write that sends every update -/

/-- A cached order that the update of an entry would leave as it is. -/
def TradeOrders.skips (o : TradeOrders) (orderId : String) (params : UpdateOrderParams) (price quantity : Nat) : Bool :=
  (o.cacheOrders.getById orderId).any fun order => orderUnchanged order price quantity params.perTrade

section Sending

variable {E : Type} (out : OrdersOutside E) (entry : ItemEntry) (route : Route) (orderType : OrderType)
  (postPrice : Nat) (perTrade : Option Int) (properties : Properties) (tradeOperations : OperationSet)

/-- `writeOrder` without the test for an unchanged order. -/
def writeOrderSending (canCreateOrder : Bool) : TraderM E Unit :=
  let orderId := properties.id.getD ""
  let has := OperationSet.has tradeOperations
  if has "Create" && !has "Delete" && canCreateOrder then do
    let _ ← create out (createParams entry orderType postPrice perTrade properties) route
  else if has "Update" && !has "Delete" then do
    let _ ← update out orderId (updateParams entry orderType postPrice perTrade properties)
  else if has "Update" && has "Delete" then do
    let _ ← delete out orderId
  else pure ()

/-- `progressOrder` without the test for an unchanged order. -/
def progressOrderSending (slots : Slots) : TraderM E Unit := do
  let orders ← read World.orders
  let free := match orderType with
    | .buy => orders.canCreateBuy (slots.sellBacklog + sellSlotMargin) route
    | .sell => orders.canCreateOrder route
  let has := OperationSet.has tradeOperations
  let blocked := has "Create" && !has "Delete" && !free
  let freed ← if blocked then freeSlot out entry route orderType slots else pure false
  writeOrderSending out entry route orderType postPrice perTrade properties tradeOperations (free || freed)

variable {out entry route orderType postPrice perTrade properties tradeOperations}

/-- The fields that a `PATCH` sends; the properties stay with the client. -/
def sentFields (params : UpdateOrderParams) : UpdateOrderParams := { params with properties := none }

theorem exec_updateLocal (orderId : String) (params : UpdateOrderParams) (w : World E) :
    (updateLocal orderId params : TraderM E Unit).exec w =
      (.ok (), { w with
        orders := w.orders.applied orderId params
        trace := w.trace ++
          [.write ⟨.updateLocal orderId params, false, w.processing, true, w.orders.applied orderId params⟩] }) := by
  rw [updateLocal, exec_bind]
  change (if w.orders.inBook orderId = true then _ else _ : TraderM E Unit).exec w = _
  cases hbook : w.orders.inBook orderId with
  | true =>
      rw [TradeOrders.applied_of_inBook hbook]
      rfl
  | false =>
      rw [TradeOrders.applied_of_live hbook]
      rfl

/-- A successful update leaves the cache as a local one does. -/
theorem update_applied (orderId : String) (params : UpdateOrderParams) (w : World E) :
    (update out orderId params).wp (fun r t => ∀ order, r = .ok order →
      t.orders.cacheOrders = (w.orders.applied orderId params).cacheOrders) w := by
  rw [update, wp_bind, wp_read, next_ok, wp_ite]
  refine ⟨fun hbook => ?_, fun hbook => ?_⟩
  · rw [TradeOrders.applied_of_inBook hbook]
    dsimp only
    cases (w.orders.book.update orderId params).getById orderId with
    | some order => exact fun _ _ => rfl
    | none => exact fun _ h => by cases h
  · rw [TradeOrders.applied_of_live (Bool.eq_false_iff.mpr hbook), updateLive, wp_bind, liveClient, wp_bind, wp_read,
      next_ok]
    cases hlive : w.orders.live with
    | none => exact fun _ h => by cases h
    | some client =>
        rw [wp_pure, next_ok, wp_bind, wp_read, next_ok, wp_bind, ask, wp_act, next_ok]
        cases (out.update orderId params w.ext).1 with
        | ok answered => exact fun _ _ => rfl
        | error e =>
            exact wp_mono (finishLive_fails out _ _ _ _ e _ _) fun r t hfails order hok => absurd hok (hfails order)

/-- An update is skipped or sent. -/
theorem exec_writeOrder_update {canCreateOrder : Bool} {w : World E}
    (hcreate : (OperationSet.has tradeOperations "Create" && !OperationSet.has tradeOperations "Delete" &&
      canCreateOrder) ≠ true)
    (hupdate : (OperationSet.has tradeOperations "Update" && !OperationSet.has tradeOperations "Delete") = true) :
    (writeOrder out entry route orderType postPrice perTrade properties tradeOperations canCreateOrder).exec w =
      if w.orders.skips (properties.id.getD "") (updateParams entry orderType postPrice perTrade properties) postPrice
          (asU32 (entry.getQuantity orderType)) then
        (updateLocal (properties.id.getD "") (updateParams entry orderType postPrice perTrade properties)).exec w
      else
        (do let _ ← update out (properties.id.getD "")
              (updateParams entry orderType postPrice perTrade properties)).exec w := by
  rw [writeOrder, if_neg hcreate, if_pos hupdate, exec_bind]
  change (if w.orders.skips _ _ _ _ = true then _ else _ : TraderM E Unit).exec w = _
  split
  next => rfl
  next => rfl

/-- Where the second program ends well, so does the first, and with the same cache. -/
def SameCache (m m' : TraderM E Unit) : Prop :=
  ∀ w w₂, m'.exec w = (.ok (), w₂) → ∃ w₁, m.exec w = (.ok (), w₁) ∧ w₁.orders.cacheOrders = w₂.orders.cacheOrders

theorem SameCache.refl (m : TraderM E Unit) : SameCache m m := fun _ w₂ h => ⟨w₂, h, rfl⟩

theorem SameCache.bind {α : Type} {m : TraderM E α} {f f' : α → TraderM E Unit} (h : ∀ a, SameCache (f a) (f' a)) :
    SameCache (m >>= f) (m >>= f') := by
  intro w w₂ hrun
  rw [exec_bind] at hrun ⊢
  split at hrun
  next a ha => exact h a _ _ hrun
  next => cases hrun

theorem SameCache.ite {c : Prop} [Decidable c] {m m' n n' : TraderM E Unit} (h : c → SameCache m m')
    (h' : ¬ c → SameCache n n') : SameCache (if c then m else n) (if c then m' else n') := by
  by_cases hc : c
  · rw [if_pos hc, if_pos hc]
    exact h hc
  · rw [if_neg hc, if_neg hc]
    exact h' hc

/-- A local update in place of one that is sent. -/
theorem sameCache_updateLocal (orderId : String) (params : UpdateOrderParams) :
    SameCache (updateLocal orderId params) (do let _ ← update out orderId params) := by
  intro w w₂ hrun
  refine ⟨_, exec_updateLocal orderId params w, ?_⟩
  rw [exec_bind] at hrun
  split at hrun
  next order hok =>
    cases hrun
    exact (update_applied orderId params w order hok).symm
  next => cases hrun

theorem writeOrder_sameCache (canCreateOrder : Bool) :
    SameCache (writeOrder out entry route orderType postPrice perTrade properties tradeOperations canCreateOrder)
      (writeOrderSending out entry route orderType postPrice perTrade properties tradeOperations canCreateOrder) := by
  intro w w₂ hrun
  rw [writeOrderSending] at hrun
  split at hrun
  next hcreate =>
    rw [writeOrder, if_pos hcreate]
    exact ⟨w₂, hrun, rfl⟩
  next hcreate =>
    split at hrun
    next hupdate =>
      rw [exec_writeOrder_update hcreate hupdate]
      split
      next => exact sameCache_updateLocal _ _ w w₂ hrun
      next => exact ⟨w₂, hrun, rfl⟩
    next hupdate =>
      rw [writeOrder, if_neg hcreate, if_neg hupdate]
      exact ⟨w₂, hrun, rfl⟩

theorem progressOrder_sameCache (slots : Slots) :
    SameCache (progressOrder out entry route orderType postPrice perTrade properties tradeOperations slots)
      (progressOrderSending out entry route orderType postPrice perTrade properties tradeOperations slots) := by
  rw [progressOrder, progressOrderSending]
  refine .bind fun orders => .ite (fun _ => ?_) fun _ => ?_
  · exact .bind fun freed => writeOrder_sameCache _
  · exact .bind fun freed => writeOrder_sameCache _

/-- The write was the local one. -/
def Skipped (orderId : String) (params : UpdateOrderParams) (w t : World E) : Prop :=
  ∃ sent warm succeeded after, t.trace = w.trace ++ [.write ⟨.updateLocal orderId params, sent, warm, succeeded, after⟩]

theorem Wrote.not_skipped {action : Action} {w t : World E} (h : Wrote out action w t)
    (hother : ∀ orderId params, action ≠ .updateLocal orderId params) (orderId : String) (params : UpdateOrderParams) :
    ¬ Skipped orderId params w t := by
  rintro ⟨sent, warm, succeeded, after, hskipped⟩
  obtain ⟨sent', succeeded', after', rest, -, htrace, -, -⟩ := h.wrote
  rw [hskipped, List.append_cancel_left_eq, List.cons.injEq, Step.write.injEq, Write.mk.injEq] at htrace
  exact hother _ _ htrace.1.1.symm

theorem skips_of_skipped {canCreateOrder : Bool} {orderId : String} {params : UpdateOrderParams} (w : World E) :
    (writeOrder out entry route orderType postPrice perTrade properties tradeOperations canCreateOrder).wp
      (fun r t => Skipped orderId params w t →
        r = .ok () ∧ orderId = properties.id.getD "" ∧
        params = updateParams entry orderType postPrice perTrade properties ∧
        w.orders.skips orderId params postPrice (asU32 (entry.getQuantity orderType)) = true ∧
        t.orders = w.orders.applied orderId params) w := by
  have hwrote {α : Type} {m : TraderM E α} {action : Action} {Q : Except Error Unit → World E → Prop}
      (hm : m.wp (fun _ t => Wrote out action w t) w)
      (hother : ∀ orderId params, action ≠ .updateLocal orderId params) :
      (m >>= fun _ => pure ()).wp (fun r t => Skipped orderId params w t → Q r t) w := by
    exact wp_seq hm (fun _ t ht hskipped => absurd hskipped (ht.not_skipped hother _ _))
      fun _ t ht hskipped => absurd hskipped (ht.not_skipped hother _ _)
  by_cases hcreate : (OperationSet.has tradeOperations "Create" && !OperationSet.has tradeOperations "Delete" &&
      canCreateOrder) = true
  · rw [writeOrder, if_pos hcreate]
    exact hwrote (create_wrote out _ _ w) fun _ _ h => by cases h
  · by_cases hupdate : (OperationSet.has tradeOperations "Update" && !OperationSet.has tradeOperations "Delete") = true
    · have hsend := hwrote (Q := fun _ _ => False) (update_wrote out (properties.id.getD "")
        (updateParams entry orderType postPrice perTrade properties) w) fun _ _ h => by cases h
      rw [wp, exec_writeOrder_update hcreate hupdate]
      split
      next hskips =>
        rw [exec_updateLocal]
        rintro ⟨sent, warm, succeeded, after, hskipped⟩
        rw [List.append_cancel_left_eq, List.cons.injEq, Step.write.injEq, Write.mk.injEq, Action.updateLocal.injEq]
          at hskipped
        obtain ⟨⟨⟨rfl, rfl⟩, -⟩, -⟩ := hskipped
        exact ⟨rfl, rfl, rfl, hskips, rfl⟩
      next => exact fun hskipped => (hsend hskipped).elim
    · rw [writeOrder, if_neg hcreate, if_neg hupdate, wp_ite]
      refine ⟨fun _ => ?_, fun _ => ?_⟩
      · exact hwrote (delete_wrote out _ w) fun _ _ h => by cases h
      intro hskipped
      obtain ⟨sent, warm, succeeded, after, hskipped⟩ := hskipped
      cases List.self_eq_append_right.mp hskipped

/-- What is skipped would change the properties alone. -/
theorem update_of_orderUnchanged {order : Order} (properties : Properties)
    (hperTrade : ∀ p ∈ perTrade.map asU32, p < 256)
    (h : orderUnchanged order postPrice (asU32 (entry.getQuantity orderType)) (perTrade.map asU32) = true) :
    order.update (updateParams entry orderType postPrice perTrade properties) =
        { order with properties := properties } ∧
      order.update (sentFields (updateParams entry orderType postPrice perTrade properties)) = order := by
  simp only [orderUnchanged, Bool.and_eq_true, decide_eq_true_eq, Bool.or_eq_true, Option.isNone_iff_eq_none] at h
  obtain ⟨⟨⟨-, hprice⟩, hquantity⟩, hpart⟩ := h
  have hkept : ((perTrade.map asU32).map (· % 256)).or order.perTrade = order.perTrade := by
    cases hasked : perTrade.map asU32 with
    | none => rfl
    | some p =>
        rw [hasked] at hpart hperTrade
        have horder : order.perTrade = some p := hpart.resolve_left fun h => by cases h
        rw [Option.map_some, Option.some_or, Nat.mod_eq_of_lt (hperTrade p rfl), horder]
  constructor
  · simp only [Order.update, updateParams, hkept, ← hprice, ← hquantity, Option.getD_some, Option.getD_none]
    rfl
  · simp only [Order.update, sentFields, updateParams, hkept, ← hprice, ← hquantity, Option.getD_some, Option.getD_none]
    rfl

/-- A skipped update would send the order nothing that it does not have, and skipping it changes the properties of
that order and nothing else in the cache. Whether it is skipped or sent, the cache is the same. -/
theorem skipping_is_sending (out : OrdersOutside E) (entry : ItemEntry) (route : Route) (orderType : OrderType)
    (postPrice : Nat) (perTrade : Option Int) (properties : Properties) (tradeOperations : OperationSet) (slots : Slots)
    (hperTrade : ∀ p ∈ perTrade.map asU32, p < 256) :
    (∀ w w₂ : World E,
      (progressOrderSending out entry route orderType postPrice perTrade properties tradeOperations slots).exec w =
        (.ok (), w₂) →
      ∃ w₁, (progressOrder out entry route orderType postPrice perTrade properties tradeOperations slots).exec w =
        (.ok (), w₁) ∧ w₁.orders.cacheOrders = w₂.orders.cacheOrders) ∧
    ∀ (w w₁ : World E) (canCreateOrder : Bool) (result : Except Error Unit) (orderId : String)
      (params : UpdateOrderParams), w.orders.cacheOrders.IdsUnique →
      (writeOrder out entry route orderType postPrice perTrade properties tradeOperations canCreateOrder).exec w =
        (result, w₁) →
      Skipped orderId params w w₁ →
      ∃ order, w.orders.cacheOrders.getById orderId = some order ∧ order.update (sentFields params) = order ∧
        w₁.orders.cacheOrders =
          w.orders.cacheOrders.adjust orderId fun o => { o with properties := properties } := by
  refine ⟨progressOrder_sameCache slots, ?_⟩
  intro w w₁ canCreateOrder result orderId params hids hrun hskipped
  obtain ⟨-, rfl, rfl, hskips, horders⟩ := exec_of_wp (skips_of_skipped w) hrun hskipped
  obtain ⟨order, horder, hunchanged⟩ := (Option.any_eq_true _ _).mp hskips
  obtain ⟨hupdated, hsentFields⟩ := update_of_orderUnchanged properties hperTrade hunchanged
  refine ⟨order, horder, hsentFields, ?_⟩
  have hsame : ∀ x ∈ w.orders.cacheOrders.toVec, x.id = properties.id.getD "" → x = order := by
    intro x hx hid
    have hfound : w.orders.cacheOrders.getById x.id = some x := Table.find?_of_nodup hids hx
    rw [hid, horder] at hfound
    exact (Option.some.inj hfound).symm
  rw [horders, TradeOrders.applied_cacheOrders hids (Option.isSome_of_eq_some horder)]
  · refine OrderList.adjust_congr fun x hx hid => ?_
    rw [hsame x hx hid, hupdated]
  · intro x hx hid
    rw [hsame x hx hid, hupdated]

end Sending

/-! ### A bid on a lens that sells by ones -/

def bulkBid (profit : Option Int) : Order :=
  ⟨"lens-bid", .buy, 10, 1, some 1, .default, true, "id-lens", ⟨some "lens-bid", profit, none⟩⟩

/-- The market takes every update. -/
def taking : OrdersOutside Nat where
  create _ e := (.error .other, e)
  update _ _ e := (.ok (bulkBid none), e + 1)
  delete _ e := (.error .other, e)
  myOrders e := (.error .other, e)
  uuid e := ("", e)

def bulkWorld (profit : Option Int) : World Nat where
  orders := .new (some ⟨.new [bulkBid profit], 100⟩) false
  orphanFirstSeen := []
  ext := 0
  processing := none
  trace := []
  sweeps := []

def bulkEntry : ItemEntry :=
  { wfmUrl := "lens", wfmId := "id-lens", buyQuantity := 1, operations := ["Buy"] }

/-- The write of the bid at 10 with a profit of 7, or the one that sends it. -/
def bulkWrite : Except Error Unit × World Nat :=
  (progressOrder taking bulkEntry .live .buy 10 (some 1) (bulkBid (some 7)).properties ["Update"] {}).exec
    (bulkWorld none)

def bulkSent : Except Error Unit × World Nat :=
  (progressOrderSending taking bulkEntry .live .buy 10 (some 1) (bulkBid (some 7)).properties ["Update"] {}).exec
    (bulkWorld none)

theorem skipping_is_sending_bulk :
    bulkWrite.2.ext = 0 ∧ bulkSent.2.ext = 1 ∧ bulkWrite.2.orders.cacheOrders = bulkSent.2.orders.cacheOrders ∧
      bulkWrite.2.orders.cacheOrders =
        (bulkWorld none).orders.cacheOrders.adjust "lens-bid" fun o =>
          { o with properties := (bulkBid (some 7)).properties } := by
  obtain ⟨hmatches, hskips⟩ := skipping_is_sending taking bulkEntry .live .buy 10 (some 1) (bulkBid (some 7)).properties
    ["Update"] {} (by decide)
  obtain ⟨w₁, hrun, hcache⟩ := hmatches (bulkWorld none) bulkSent.2 rfl
  have hw₁ : w₁ = bulkWrite.2 := congrArg Prod.snd hrun.symm
  rw [hw₁] at hcache
  obtain ⟨order, -, -, hadjusted⟩ := hskips (bulkWorld none) bulkWrite.2 true (.ok ()) "lens-bid"
    (updateParams bulkEntry .buy 10 (some 1) (bulkBid (some 7)).properties) (List.nodup_singleton _) rfl
    ⟨_, _, _, _, rfl⟩
  exact ⟨rfl, rfl, hcache, hadjusted⟩

end Quantframe.Trader
