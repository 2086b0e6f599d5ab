import Quantframe.Trader.OneOrder
import Quantframe.Trader.Slots

/-!
# Sales of distinct items

Where no two sales of a cycle have the same item and sub-type, a sale that the backlog does not count finds its order,
and creates none.
-/

namespace Quantframe.Trader

open Lib Lib.Effect Market
open Handlers (OperationSet)

/-! ### The sell orders of the client -/

namespace TradeOrders

def sellKeys (o : TradeOrders) : List (String × WFSubType) := (o.store .live).keys .sell

/-- No two orders of the client have the same id. -/
def DistinctIds (o : TradeOrders) : Prop := ((o.store .live).toVec.map Order.id).Nodup

instance : DecidablePred DistinctIds := fun o => inferInstanceAs (Decidable ((o.store .live).toVec.map Order.id).Nodup)

theorem store_mapLive (o : TradeOrders) (f : OrderList → OrderList) (failures : Nat) :
    (({ o.mapLive f with failures := failures } : TradeOrders).store .live = f (o.store .live)) ∨
      (({ o.mapLive f with failures := failures } : TradeOrders).store .live = o.store .live) := by
  unfold store mapLive
  cases o.live with
  | none => exact .inr rfl
  | some client => exact .inl rfl

end TradeOrders

/-- After a write no two orders of the client have the same id. -/
def Step.DistinctIds : Step → Prop
  | .write w => w.orders.DistinctIds
  | .lookup .. | .turn _ | .blocked .. => True

instance : DecidablePred Step.DistinctIds
  | .write w => inferInstanceAs (Decidable w.orders.DistinctIds)
  | .lookup .. | .turn _ | .blocked .. => isTrue trivial

/-- A removed order takes its own key only. -/
theorem keys_removeById {l : OrderList} (hids : (l.toVec.map Order.id).Nodup) {side : OrderType} {o : Order}
    (ho : o ∈ l.side side) {key : String × WFSubType} (hkey : key ∈ l.keys .sell)
    (hother : side = .sell → key ≠ o.key) :
    key ∈ (l.removeById o.id).keys .sell := by
  obtain ⟨x, hx, rfl⟩ := List.mem_map.mp hkey
  refine List.mem_map.mpr ⟨x, ?_, rfl⟩
  rw [OrderList.removeById_side, List.mem_filter, decide_eq_true_eq]
  refine ⟨hx, fun hid => ?_⟩
  cases side with
  | sell =>
      have hsame : x = o :=
        List.inj_on_of_nodup_map hids (OrderList.mem_toVec.mpr (.inl hx)) (OrderList.mem_toVec.mpr (.inl ho)) hid
      exact hother rfl (congrArg Order.key hsame)
  | buy =>
      rw [OrderList.toVec, List.map_append] at hids
      exact (List.nodup_append.mp hids).2.2 _ (List.mem_map_of_mem hx) _ (List.mem_map_of_mem ho) hid

section Writes

variable {E : Type} {out : OrdersOutside E} {o after : TradeOrders} {action : Action} {sent : Bool}
  {key : String × WFSubType} {id : String}

theorem Does.sellKeys_create {params : CreateOrderParams} {route : Route}
    (h : Does out o (.create params route) sent true after) (hkey : key ∈ o.sellKeys) : key ∈ after.sellKeys := by
  cases h with
  | simulatedCreate => exact hkey
  | @liveCreate _ e e' answered hanswer =>
      rw [TradeOrders.sellKeys]
      rcases o.store_mapLive (fun list => list.add { answered with properties := params.properties.getD .default }) 0
        with hstore | hstore
      · rw [hstore, OrderList.add_keys]
        exact List.mem_append_left _ hkey
      · rw [hstore]
        exact hkey

/-- An update changes no key. -/
theorem sellKeys_update {params : UpdateOrderParams} (hrank : params.rank = none) (o : TradeOrders) (id : String)
    (failures : Nat) :
    ({ o.mapLive fun list => list.update id params with failures := failures } : TradeOrders).sellKeys =
      o.sellKeys := by
  rw [TradeOrders.sellKeys, TradeOrders.sellKeys]
  rcases o.store_mapLive (fun list => list.update id params) failures with hstore | hstore
  · rw [hstore, OrderList.update_keys hrank]
  · rw [hstore]

theorem Does.sellKeys_update {params : UpdateOrderParams} (hrank : params.rank = none)
    (h : Does out o (.update id params) sent true after) : after.sellKeys = o.sellKeys := by
  cases h with
  | bookUpdate => rfl
  | liveUpdate => exact Trader.sellKeys_update hrank o id 0

theorem Does.sellKeys_updateLocal {params : UpdateOrderParams} (hrank : params.rank = none)
    (h : Does out o (.updateLocal id params) sent true after) : after.sellKeys = o.sellKeys := by
  cases h with
  | bookLocal => rfl
  | liveLocal => exact Trader.sellKeys_update hrank o id o.failures

theorem Does.sellKeys_delete (h : Does out o (.delete id) sent true after) (hkey : key ∈ after.sellKeys) :
    key ∈ o.sellKeys := by
  cases h with
  | bookDelete => exact hkey
  | @liveDelete _ e e' deleted hbook hanswer =>
      rw [TradeOrders.sellKeys] at hkey
      rcases o.store_mapLive (fun list => list.removeById deleted.id) 0 with hstore | hstore
      · rw [hstore] at hkey
        exact (OrderList.removeById_keys _ _ _).subset hkey
      · rwa [hstore] at hkey

/-- A delete of an order that the client holds takes the key of that order only. -/
theorem Does.sellKeys_kept (h : Does out o (.delete id) sent true after) (hmarket : out.Tagged) (hids : o.DistinctIds)
    (hheld : o.inBook id = false → ∃ side, ∃ x ∈ (o.store .live).side side, x.id = id ∧ (side = .sell → key ≠ x.key))
    (hkey : key ∈ o.sellKeys) : key ∈ after.sellKeys := by
  cases h with
  | bookDelete => exact hkey
  | @liveDelete _ e e' deleted hbook hanswer =>
      obtain ⟨side, x, hx, hid, hother⟩ := hheld hbook
      rw [TradeOrders.sellKeys]
      rcases o.store_mapLive (fun list => list.removeById deleted.id) 0 with hstore | hstore
      · rw [hstore, hmarket.delete _ _ _ _ hanswer, ← hid]
        exact keys_removeById hids hx hkey hother
      · rw [hstore]
        exact hkey

end Writes

/-! ### What stands -/

abbrev Key := String × WFSubType

/-- While no write fails: only counted entries have created a live sell order, orders of some keys stand, and there are
none of others. -/
structure Standing (l : Ledger) (standing absent : List Key) (counting : Bool) (orders : TradeOrders)
    (steps : List Step) : Prop where
  others : (tally l.counts steps).others = 0
  counting : (tally l.counts steps).counting = counting
  ids : orders.DistinctIds
  standing : ∀ key ∈ standing, key ∈ orders.sellKeys
  absent : ∀ key ∈ absent, key ∉ orders.sellKeys

def Stands (l : Ledger) (standing absent : List Key) (counting : Bool) (orders : TradeOrders) (trace : List Step) :
    Prop :=
  orders.globalDryRun = l.start.globalDryRun ∧ ∃ steps, trace = l.before ++ steps ∧
    ((∀ step ∈ steps, step.Succeeded ∧ step.DistinctIds) → Standing l standing absent counting orders steps)

section Stands

variable {E F α : Type} {out : Outside E} {l : Ledger} {standing absent standing' absent' : List Key}
  {counting counting' : Bool} {orders : TradeOrders} {trace : List Step} {w t : World E} {action : Action}

theorem Stands.mono (h : Stands l standing absent counting orders trace) (hstanding : ∀ key ∈ standing', key ∈ standing)
    (habsent : ∀ key ∈ absent', key ∈ absent) : Stands l standing' absent' counting orders trace := by
  obtain ⟨hdryRun, steps, htrace, hgood⟩ := h
  refine ⟨hdryRun, steps, htrace, fun hsteps => ?_⟩
  have hthen := hgood hsteps
  exact ⟨hthen.others, hthen.counting, hthen.ids, fun key hkey => hthen.standing key (hstanding key hkey),
    fun key hkey => hthen.absent key (habsent key hkey)⟩

/-- What the client is seen not to hold. -/
theorem Stands.missing (h : Stands l standing absent counting orders trace)
    (hmissing : ∀ key ∈ absent', key ∉ orders.sellKeys) : Stands l standing absent' counting orders trace := by
  obtain ⟨hdryRun, steps, htrace, hgood⟩ := h
  refine ⟨hdryRun, steps, htrace, fun hsteps => ?_⟩
  have hthen := hgood hsteps
  exact ⟨hthen.others, hthen.counting, hthen.ids, hthen.standing, hmissing⟩

/-- A step that is no write. -/
theorem Stands.noted (h : Stands l standing absent counting orders trace) {step : Step}
    (htally : ∀ t : Tally, t.counting = counting → t.step l.counts step = { t with counting := counting' }) :
    Stands l standing absent counting' orders (trace ++ [step]) := by
  obtain ⟨hdryRun, steps, rfl, hgood⟩ := h
  refine ⟨hdryRun, steps ++ [step], List.append_assoc _ _ _, fun hsteps => ?_⟩
  have hthen := hgood fun s hs => hsteps s (List.mem_append_left _ hs)
  have hstep := htally _ hthen.counting
  rw [← tally_concat] at hstep
  refine ⟨?_, ?_, hthen.ids, hthen.standing, hthen.absent⟩
  · rw [hstep]
    exact hthen.others
  · rw [hstep]

/-- A write; a live sale is created by a counted entry, or where its key stands and does not. -/
theorem Stands.wrote (h : Stands l standing absent counting w.orders w.trace)
    (hwrote : Wrote out.toOrdersOutside action w t)
    (hothers : action.creates .sell = true → counting = false → ∃ key ∈ standing, key ∈ absent)
    (hkeeps : ∀ sent after, Does out.toOrdersOutside w.orders action sent true after → w.orders.DistinctIds →
      (∀ key ∈ standing', key ∈ standing ∧ (key ∈ w.orders.sellKeys → key ∈ after.sellKeys)) ∧
        ∀ key ∈ absent', key ∈ absent ∧ (key ∈ after.sellKeys → key ∈ w.orders.sellKeys)) :
    Stands l standing' absent' counting t.orders t.trace := by
  obtain ⟨hdryRun, steps, htrace, hgood⟩ := h
  obtain ⟨sent, succeeded, after, rest, hdoes, htrace', -, hdone⟩ := hwrote.wrote
  refine ⟨hwrote.dryRun.trans hdryRun, steps ++ .write ⟨action, sent, w.processing, succeeded, after⟩ :: rest, ?_, ?_⟩
  · rw [htrace', htrace, List.append_assoc]
  · intro hsteps
    obtain ⟨hold, hnew⟩ := List.forall_mem_append.mp hsteps
    obtain ⟨hwrite, hids⟩ := (List.forall_mem_cons.mp hnew).1
    change succeeded = true at hwrite
    subst hwrite
    obtain ⟨rfl, rfl⟩ := hdone rfl
    have hthen := hgood hold
    obtain ⟨hstanding, habsent⟩ := hkeeps sent _ hdoes hthen.ids
    have hstep := tally_concat l.counts steps (.write ⟨action, sent, w.processing, true, t.orders⟩)
    rw [Tally.step, Bool.and_true] at hstep
    have hcounts : action.creates .sell = true → counting = true := by
      intro hsell
      by_contra hcounting
      obtain ⟨key, hstands, hmissing⟩ := hothers hsell (Bool.eq_false_iff.mpr hcounting)
      exact hthen.absent key hmissing (hthen.standing key hstands)
    refine ⟨?_, ?_, hids, ?_, ?_⟩
    · rw [hstep]
      split
      next hsell =>
        rw [hthen.counting, if_pos (hcounts hsell)]
        exact hthen.others
      next => exact hthen.others
    · rw [hstep]
      split
      next hsell =>
        rw [hthen.counting, if_pos (hcounts hsell)]
      next => exact hthen.counting
    · intro key hkey
      obtain ⟨hin, hkeep⟩ := hstanding key hkey
      exact hkeep (hthen.standing key hin)
    · intro key hkey hmem
      obtain ⟨hin, hkeep⟩ := habsent key hkey
      exact hthen.absent key hin (hkeep hmem)

theorem Quiet.stands {m : TraderM E α} (hm : Quiet m) :
    Keeps (fun w => Stands l standing absent counting w.orders w.trace) m :=
  hm fun desk => Stands l standing absent counting (desk none).orders (desk none).trace

/-! ### The programs -/

theorem delete_stands (hmarket : out.toOrdersOutside.Tagged) {id : String} {w : World E}
    (hheld : ∀ key ∈ standing', key ∈ standing ∧ (w.orders.inBook id = false →
      ∃ side, ∃ x ∈ (w.orders.store .live).side side, x.id = id ∧ (side = .sell → key ≠ x.key)))
    (h : Stands l standing absent counting w.orders w.trace) :
    (delete out.toOrdersOutside id).wp (fun _ t => Stands l standing' absent counting t.orders t.trace) w := by
  refine wp_mono (delete_wrote _ id w) fun _ t hwrote => ?_
  refine h.wrote hwrote (fun hcreates => by cases hcreates) fun sent after hdoes hids => ⟨?_, ?_⟩
  · intro key hkey
    exact ⟨(hheld key hkey).1, hdoes.sellKeys_kept hmarket hids (hheld key hkey).2⟩
  · intro key hkey
    exact ⟨hkey, hdoes.sellKeys_delete⟩

theorem victim_mem {orders : TradeOrders} {route : Route} {orderType : OrderType} {wishList : List (String × String)}
    {victim : Order} (h : sellSlotVictim orders route orderType wishList = some victim) :
    victim ∈ (orders.store .live).side .buy := by
  rw [sellSlotVictim] at h
  split at h
  · obtain ⟨client, hclient, hleast⟩ := Option.bind_eq_some_iff.mp h
    rw [TradeOrders.store, hclient]
    exact List.mem_of_mem_filter (leastProfit_mem hleast)
  · cases h

/-- A slot is freed by a bid. -/
theorem freeSlot_stands (hmarket : out.toOrdersOutside.Tagged) (entry : ItemEntry) (route : Route)
    (orderType : OrderType) (slots : Slots) :
    Keeps (fun w => Stands l standing absent counting w.orders w.trace)
      (freeSlot out.toOrdersOutside entry route orderType slots) := by
  intro w h
  rw [freeSlot, wp_bind, wp_read, next_ok]
  dsimp only
  rw [wp_bind, wp_change, next_ok]
  have hnoted : Stands l standing absent counting w.orders (w.trace ++
      [.blocked entry orderType route slots.wishList (sellSlotVictim w.orders route orderType slots.wishList)]) :=
    h.noted fun t ht => by rw [Tally.step, ← ht]
  cases hvictim : sellSlotVictim w.orders route orderType slots.wishList with
  | none =>
      rw [hvictim] at hnoted
      exact hnoted
  | some victim =>
      rw [hvictim] at hnoted
      show wp (attempt (delete out.toOrdersOutside victim.id) >>= _) _ _
      rw [wp_bind, wp_attempt]
      refine wp_mono (delete_stands hmarket (fun key hkey => ⟨hkey, fun _ => ?_⟩) hnoted) fun r t ht => ?_
      · exact ⟨.buy, victim, victim_mem hvictim, rfl, fun hside => by cases hside⟩
      · cases r with
        | ok => exact ht
        | error e => exact ht

def ItemEntry.key (e : ItemEntry) : Key := (e.wfmId, .fromEntity e.subType)

/-- An entry has looked for its order. -/
structure Sought (l : Ledger) (standing absent : List Key) (counting : Bool) (entry : ItemEntry) (orderType : OrderType)
    (route : Route) (found : Option Order) (w : World E) : Prop where
  stands : Stands l standing absent counting w.orders w.trace
  found : w.orders.findOrder entry.wfmId (.fromEntity entry.subType) orderType route = found

section Sought

variable {entry : ItemEntry} {orderType : OrderType} {route : Route} {found : Option Order}

theorem getOrderInfo_sought (entry : ItemEntry) (orderType : OrderType) (route : Route)
    (h : Stands l standing absent counting w.orders w.trace) :
    (getOrderInfo entry orderType route).wp
      (fun r t => ∃ found, r = .ok (.of found) ∧ Sought l standing absent counting entry orderType route found t) w :=
  ⟨_, rfl, h.noted fun t ht => by rw [Tally.step, ← ht], rfl⟩

theorem Quiet.keepsSought {m : TraderM E α} (hm : Quiet m) :
    Keeps (Sought l standing absent counting entry orderType route found) m := by
  intro w h
  refine wp_mono (hm (fun desk => Stands l standing absent counting (desk none).orders (desk none).trace ∧
    (desk none).orders.findOrder entry.wfmId (.fromEntity entry.subType) orderType route = found) w
      ⟨h.stands, h.found⟩) fun _ t ht => ⟨ht.1, ht.2⟩

/-- An entry without an order may create one; nothing else is written. -/
theorem writeOrder_create_stands {properties : Properties} {operations : OperationSet}
    (hanswers : Answers none properties operations)
    (hothers : orderType = .sell → route = .live → counting = false → ∃ key ∈ standing, key ∈ absent)
    (postPrice : Nat) (perTrade : Option Int) (canCreateOrder : Bool)
    (h : Stands l standing absent counting w.orders w.trace) :
    (writeOrder out.toOrdersOutside entry route orderType postPrice perTrade properties operations canCreateOrder).wp
      (fun _ t => Stands l standing [] counting t.orders t.trace) w := by
  have hidle : Stands l standing [] counting w.orders w.trace := h.mono (fun _ hkey => hkey) fun _ hkey => by cases hkey
  rw [writeOrder, wp_ite]
  refine ⟨fun _ => ?_, fun _ => ?_⟩
  · refine wp_seq (wp_mono (create_wrote _ _ route w) fun _ t hwrote => ?_) (fun _ _ ht => ht) fun _ _ ht => ht
    refine h.wrote hwrote (fun hcreates => ?_) fun sent after hdoes _ => ⟨?_, ?_⟩
    · cases route with
      | live => exact hothers (of_decide_eq_true hcreates) rfl
      | dryRun => cases hcreates
    · intro key hkey
      exact ⟨hkey, hdoes.sellKeys_create⟩
    · intro key hkey
      cases hkey
  · simp only [hanswers.update, Option.isSome_none, Bool.false_and, Bool.false_eq_true, if_false]
    exact hidle

/-- An entry with an order updates or deletes it. -/
theorem writeOrder_update_stands {o : Order} {properties : Properties} {operations : OperationSet}
    (hmarket : out.toOrdersOutside.Tagged) (hanswers : Answers (some o) properties operations)
    (hstanding : ∀ key ∈ standing', key ∈ standing ∧ (orderType = .sell → key ≠ entry.key))
    (postPrice : Nat) (perTrade : Option Int) (canCreateOrder : Bool)
    (h : Sought l standing absent counting entry orderType route (some o) w) :
    (writeOrder out.toOrdersOutside entry route orderType postPrice perTrade properties operations canCreateOrder).wp
      (fun _ t => Stands l standing' [] counting t.orders t.trace) w := by
  have hid : properties.id.getD "" = o.id := hanswers.id
  have hnone : Stands l standing [] counting w.orders w.trace :=
    h.stands.mono (fun _ hkey => hkey) fun _ hkey => by cases hkey
  have hkept {action : Action} {t : World E} (hwrote : Wrote out.toOrdersOutside action w t)
      (hcreates : action.creates .sell = false)
      (hkeys : ∀ sent after, Does out.toOrdersOutside w.orders action sent true after →
        after.sellKeys = w.orders.sellKeys) :
      Stands l standing' [] counting t.orders t.trace := by
    refine hnone.wrote hwrote (fun hsell => ?_) fun sent after hdoes _ => ⟨fun key hkey => ?_, fun key hkey => ?_⟩
    · rw [hcreates] at hsell
      cases hsell
    · rw [hkeys sent after hdoes]
      exact ⟨(hstanding key hkey).1, fun hmem => hmem⟩
    · cases hkey
  simp only [writeOrder, hanswers.create, hanswers.update, hid, Option.isNone_some, Option.isSome_some,
    Bool.false_and, Bool.true_and, Bool.false_eq_true, if_false]
  rw [wp_ite]
  refine ⟨fun _ => ?_, fun _ => ?_⟩
  · rw [wp_bind, wp_read, next_ok, wp_ite]
    refine ⟨fun _ => ?_, fun _ => ?_⟩
    · exact wp_mono (updateLocal_wrote out.toOrdersOutside _ _ w) fun _ _ hwrote =>
        hkept hwrote rfl fun _ _ hdoes => hdoes.sellKeys_updateLocal rfl
    · refine wp_seq (wp_mono (update_wrote _ _ _ w) fun _ _ hwrote => ?_) (fun _ _ ht => ht) fun _ _ ht => ht
      exact hkept hwrote rfl fun _ _ hdoes => hdoes.sellKeys_update rfl
  · rw [wp_ite]
    refine ⟨fun _ => ?_, fun _ => hnone.mono (fun key hkey => (hstanding key hkey).1) fun _ hkey => hkey⟩
    refine wp_seq (delete_stands hmarket (fun key hkey => ⟨(hstanding key hkey).1, fun hbook => ?_⟩) hnone)
      (fun _ _ ht => ht) fun _ _ ht => ht
    -- the order is one of the client's, since the simulated book has none of its id
    obtain ⟨hmem, hkeys⟩ := OrderList.findOrder_eq_some h.found
    cases route with
    | live =>
        refine ⟨orderType, o, hmem, rfl, fun hsell => ?_⟩
        have hown : o.key = entry.key := Prod.ext hkeys.1 hkeys.2
        rw [hown]
        exact (hstanding key hkey).2 hsell
    | dryRun =>
        exfalso
        rw [TradeOrders.inBook, Bool.or_eq_false_iff, OrderList.getById, Option.isSome_eq_false_iff,
          Option.isNone_iff_eq_none, List.find?_eq_none] at hbook
        refine hbook.2 o (OrderList.mem_toVec.mpr ?_) (decide_eq_true rfl)
        cases orderType with
        | sell => exact .inl hmem
        | buy => exact .inr hmem

theorem progressOrder_stands (entry : ItemEntry) (orderType : OrderType) (route : Route) (postPrice : Nat)
    (perTrade : Option Int) {properties : Properties} {operations : OperationSet} (slots : Slots)
    (hmarket : out.toOrdersOutside.Tagged) (hanswers : Answers found properties operations)
    (hothers : found = none → orderType = .sell → route = .live → counting = false → ∃ key ∈ standing, key ∈ absent)
    (hstanding : ∀ key ∈ standing', key ∈ standing ∧ (orderType = .sell → key ≠ entry.key))
    (h : Sought l standing absent counting entry orderType route found w) :
    (progressOrder out.toOrdersOutside entry route orderType postPrice perTrade properties operations slots).wp
      (fun _ t => Stands l standing' [] counting t.orders t.trace) w := by
  have hsub {t : World E} {absent : List Key} (ht : Stands l standing absent counting t.orders t.trace) :
      Stands l standing' [] counting t.orders t.trace :=
    ht.mono (fun key hkey => (hstanding key hkey).1) fun _ hkey => by cases hkey
  rw [progressOrder, wp_bind, wp_read, next_ok]
  cases found with
  | none =>
      have hwrite (canCreateOrder : Bool) {t : World E} (ht : Stands l standing absent counting t.orders t.trace) :
          (writeOrder out.toOrdersOutside entry route orderType postPrice perTrade properties operations
            canCreateOrder).wp (fun _ t => Stands l standing' [] counting t.orders t.trace) t :=
        wp_mono (writeOrder_create_stands hanswers (hothers rfl) postPrice perTrade canCreateOrder ht)
          fun _ _ hu => hsub hu
      rw [wp_ite]
      refine ⟨fun _ => ?_, fun _ => hwrite _ h.stands⟩
      exact wp_seq (freeSlot_stands hmarket entry route orderType slots w h.stands) (fun _ t ht => hwrite _ ht)
        fun _ t ht => hsub ht
  | some o =>
      simp only [hanswers.create, Option.isNone_some, Bool.false_and, Bool.false_eq_true, if_false]
      exact writeOrder_update_stands hmarket hanswers hstanding postPrice perTrade _ h

end Sought

theorem deleteOrder_stands (hmarket : out.toOrdersOutside.Tagged) (entry : ItemEntry) (route : Route) {reason : String}
    (hreason : reason ≠ "Create") :
    Keeps (fun w => Stands l standing [] counting w.orders w.trace)
      (deleteOrder out.toOrdersOutside entry .buy route reason) := by
  intro w h
  rw [deleteOrder, wp_bind]
  refine wp_mono (getOrderInfo_sought entry .buy route h) ?_
  rintro r t ⟨found, rfl, ht⟩
  rw [next_ok, wp_ite]
  refine ⟨fun _ => ht.stands, fun hid => ?_⟩
  cases found with
  | none => exact absurd rfl hid
  | some o =>
      refine progressOrder_stands entry .buy route 1 none {} hmarket ⟨orderInfo_id _, ?_, ?_⟩ (fun h => by cases h)
        (fun key hkey => ⟨hkey, fun hside => by cases hside⟩) ht
      · simp [OperationSet.ofList, OperationSet.has_add, hreason]
      · simp [OperationSet.ofList, OperationSet.has_add]

/-! ### The workflows -/

variable {num : PriceFloats F} {ctx : TradeContext F}

theorem progressBuying_stands (hmarket : out.toOrdersOutside.Tagged) (itemInfo : CacheTradableItem) (entry : ItemEntry)
    (price : ItemPriceInfo F) (live : LiveOrders) (route : Route) (slots : Slots) :
    Keeps (fun w => Stands l standing [] counting w.orders w.trace)
      (progressBuying num out ctx itemInfo entry price live route slots) := by
  rw [progressBuying]
  refine .ite (fun _ => .pure ()) fun _ => ?_
  intro w h
  rw [wp_bind]
  refine wp_mono (getOrderInfo_sought entry .buy route h) ?_
  rintro r t ⟨found, rfl, ht⟩
  rw [next_ok, wp_ite]
  refine ⟨fun _ => deleteOrder_stands hmarket entry route (by decide) t ht.stands, fun _ => ?_⟩
  refine wp_seq ((quiet_stockIsFull entry).keepsSought t ht) (fun isFull u hu => ?_) fun _ u hu => hu.stands
  rw [wp_ite]
  refine ⟨fun _ => deleteOrder_stands hmarket entry route (by decide) u hu.stands, fun _ => ?_⟩
  rw [wp_bind, wp_read, next_ok, wp_ite]
  refine ⟨fun _ => hu.stands, fun _ => ?_⟩
  exact progressOrder_stands entry .buy route _ _ slots hmarket
    (.of_has (orderInfo_id found) fun operation hop => buyOffer_has hop itemInfo entry price live _)
    (fun _ hside => by cases hside) (fun key hkey => ⟨hkey, fun hside => by cases hside⟩) hu

theorem progressWishList_stands (hmarket : out.toOrdersOutside.Tagged) (itemInfo : CacheTradableItem)
    (entry : ItemEntry) (price : ItemPriceInfo F) (route : Route) (slots : Slots) :
    Keeps (fun w => Stands l standing [] counting w.orders w.trace)
      (progressWishList num out ctx itemInfo entry price route slots) := by
  rw [progressWishList]
  refine .ite (fun _ => .pure ()) fun _ => (quiet_getWishListItem entry).stands.bind fun row => ?_
  cases row with
  | none => exact .pure ()
  | some item =>
      intro w h
      rw [wp_bind]
      refine wp_mono (getOrderInfo_sought entry .buy route h) ?_
      rintro r t ⟨found, rfl, ht⟩
      rw [next_ok, wp_ite]
      refine ⟨fun _ => ht.stands, fun _ => ?_⟩
      refine wp_seq (progressOrder_stands entry .buy route _ _ slots hmarket
          (.of_has (orderInfo_id found) fun operation hop => wishOffer_has hop entry price _ item)
          (fun _ hside => by cases hside) (fun key hkey => ⟨hkey, fun hside => by cases hside⟩) ht)
        (fun _ u hu => ?_) fun _ _ hu => hu
      exact (quiet_finalizeWishListItem _).stands u hu

/-- A sale whose order stands creates none. -/
theorem progressSelling_stands (hmarket : out.toOrdersOutside.Tagged) (itemInfo : CacheTradableItem) {entry : ItemEntry}
    (price : ItemPriceInfo F) (live : LiveOrders) {route : Route} (slots : Slots)
    (hstands : route = .live → counting = false → entry.key ∈ standing)
    (hstanding : ∀ key ∈ standing', key ∈ standing ∧ key ≠ entry.key)
    (h : Stands l standing [] counting w.orders w.trace) :
    (progressSelling num out ctx itemInfo entry price live route slots).wp
      (fun _ t => Stands l standing' [] counting t.orders t.trace) w := by
  have hsub {t : World E} {absent : List Key} (ht : Stands l standing absent counting t.orders t.trace) :
      Stands l standing' [] counting t.orders t.trace :=
    ht.mono (fun key hkey => (hstanding key hkey).1) fun _ hkey => by cases hkey
  rw [progressSelling, wp_ite]
  refine ⟨fun _ => hsub h, fun _ => ?_⟩
  refine wp_seq ((quiet_getStockItem entry).stands w h) (fun row t ht => ?_) fun _ t ht => hsub ht
  cases row with
  | none => exact hsub ht
  | some stockItem =>
      rw [wp_bind]
      refine wp_mono (getOrderInfo_sought entry .sell route ht) ?_
      rintro r u ⟨found, rfl, hu⟩
      rw [next_ok, wp_ite]
      refine ⟨fun _ => hsub hu.stands, fun _ => ?_⟩
      have hmissing : ∃ absent, Sought l standing absent counting entry .sell route found u ∧
          (found = none → route = .live → entry.key ∈ absent) := by
        cases hfound : found with
        | some o => exact ⟨[], hfound ▸ hu, fun h => by cases h⟩
        | none =>
            cases route with
            | dryRun forcedBy => exact ⟨[], hfound ▸ hu, fun _ h => by cases h⟩
            | live =>
                have hnone := OrderList.findOrder_eq_none.mp (hu.found.trans hfound)
                refine ⟨[entry.key], ⟨hu.stands.missing ?_, hfound ▸ hu.found⟩, fun _ _ => List.mem_singleton_self _⟩
                intro key hkey
                rw [List.mem_singleton.mp hkey]
                exact hnone
      obtain ⟨absent, habsent, hkey⟩ := hmissing
      refine wp_seq (progressOrder_stands entry .sell route _ _ slots hmarket
          (.of_has (orderInfo_id found) fun operation hop => sellOffer_has hop entry price live _ stockItem)
          (fun hnone _ hlive hcounting => ⟨entry.key, hstands hlive hcounting, hkey hnone hlive⟩)
          (fun key hin => ⟨(hstanding key hin).1, fun _ => (hstanding key hin).2⟩) habsent)
        (fun _ v hv => ?_) fun _ _ hv => hv
      exact (quiet_finalizeStockItem _).stands v hv

def ItemEntry.sells (e : ItemEntry) : Bool := OperationSet.has e.operations "Sell" && e.stockId.isSome

theorem progressEntry_stands (hmarket : out.toOrdersOutside.Tagged) (itemInfo : CacheTradableItem) {entry : ItemEntry}
    (price : ItemPriceInfo F) (live : LiveOrders) {route : Route} (slots : Slots)
    (hstands : entry.sells = true → route = .live → counting = false → entry.key ∈ standing)
    (hstanding : ∀ key ∈ standing', key ∈ standing ∧ (entry.sells = true → key ≠ entry.key))
    (h : Stands l standing [] counting w.orders w.trace) :
    (progressEntry num out ctx itemInfo entry price live route slots).wp
      (fun _ t => Stands l standing' [] counting t.orders t.trace) w := by
  have hsub : ∀ t : World E, Stands l standing [] counting t.orders t.trace →
      Stands l standing' [] counting t.orders t.trace :=
    fun t ht => ht.mono (fun key hkey => (hstanding key hkey).1) fun _ hkey => by cases hkey
  have hsell {t : World E} (ht : Stands l standing [] counting t.orders t.trace) :
      (if OperationSet.has entry.operations "Sell" && entry.stockId.isSome then
        progressSelling num out ctx itemInfo entry price live route slots else pure ()).wp
        (fun _ t => Stands l standing' [] counting t.orders t.trace) t := by
    rw [wp_ite]
    refine ⟨fun hsells => ?_, fun _ => hsub t ht⟩
    exact progressSelling_stands hmarket itemInfo price live slots (hstands hsells)
      (fun key hkey => ⟨(hstanding key hkey).1, (hstanding key hkey).2 hsells⟩) ht
  have hwish {t : World E} (ht : Stands l standing [] counting t.orders t.trace) :
      (progressWishList num out ctx itemInfo entry price route slots >>= fun _ =>
        if OperationSet.has entry.operations "Sell" && entry.stockId.isSome then
          progressSelling num out ctx itemInfo entry price live route slots else pure ()).wp
        (fun _ t => Stands l standing' [] counting t.orders t.trace) t :=
    wp_seq (progressWishList_stands hmarket itemInfo entry price route slots t ht) (fun _ _ hu => hsell hu)
      fun _ u hu => hsub u hu
  rw [progressEntry, wp_ite]
  refine ⟨fun _ => ?_, fun _ => ?_⟩
  · refine wp_seq (progressBuying_stands hmarket itemInfo entry price live route slots w h) (fun _ t ht => ?_)
      fun _ t ht => hsub t ht
    rw [wp_ite]
    exact ⟨fun _ => hwish ht, fun _ => hsell ht⟩
  · rw [wp_ite]
    exact ⟨fun _ => hwish h, fun _ => hsell h⟩

/-! ### The cycle -/

/-- The keys of the sales whose order the client holds. -/
def heldKeys (o : TradeOrders) (entries : List ItemEntry) : List Key :=
  (entries.filter fun e => e.sells && decide (e.key ∈ o.sellKeys)).map ItemEntry.key

theorem mem_heldKeys {o : TradeOrders} {entries : List ItemEntry} {key : Key} :
    key ∈ heldKeys o entries ↔ ∃ e ∈ entries, e.sells = true ∧ e.key ∈ o.sellKeys ∧ e.key = key := by
  rw [heldKeys, List.mem_map]
  constructor
  · intro ⟨e, he, hkey⟩
    obtain ⟨hin, hheld⟩ := List.mem_filter.mp he
    rw [Bool.and_eq_true, decide_eq_true_eq] at hheld
    exact ⟨e, hin, hheld.1, hheld.2, hkey⟩
  · intro ⟨e, hin, hsells, hheld, hkey⟩
    exact ⟨e, List.mem_filter.mpr ⟨hin, by rw [hsells, decide_eq_true hheld, Bool.and_self]⟩, hkey⟩

theorem priceOf_warm (itemInfo : CacheTradableItem) (entry : ItemEntry) :
    (priceOf num ctx itemInfo entry).warm =
      ((ctx.prices itemInfo.wfmId entry.subType).map ItemPriceInfo.warm).getD false := by
  rw [priceOf]
  cases ctx.prices itemInfo.wfmId entry.subType with
  | none => rfl
  | some price => rfl

/-- A live sale that the backlog does not count has its order. -/
theorem held_of_uncounted {orders : TradeOrders} {entry : ItemEntry} (hsells : entry.sells = true)
    (hlive : routeFor orders.globalDryRun (((ctx.prices entry.wfmId entry.subType).map ItemPriceInfo.warm).getD false) =
      .live)
    (hcounts : entry.isCounted ctx orders = false) : entry.key ∈ orders.sellKeys := by
  by_contra hmissing
  have hnone : orders.findOrder entry.wfmId (.fromEntity entry.subType) .sell .live = none :=
    OrderList.findOrder_eq_none.mpr hmissing
  rw [ItemEntry.isCounted, ← ItemEntry.sells, hsells] at hcounts
  simp only [hlive, hnone] at hcounts
  cases hcounts

theorem processEntry_stands (hmarket : out.toOrdersOutside.Tagged)
    (hcounts : l.counts = ItemEntry.isCounted ctx l.start) {entry : ItemEntry}
    (hnamed : ∀ itemInfo, ctx.tradable entry.wfmUrl = some itemInfo → itemInfo.wfmId = entry.wfmId) (slots : Slots)
    (hheld : entry.sells = true → entry.key ∈ l.start.sellKeys → entry.key ∈ standing)
    (hstanding : ∀ key ∈ standing', key ∈ standing ∧ (entry.sells = true → key ≠ entry.key))
    (h : Stands l standing [] counting w.orders w.trace) :
    (processEntry num out ctx slots entry).wp
      (fun _ t => ∃ counting, Stands l standing' [] counting t.orders t.trace) w := by
  have hsub {t : World E} {counting : Bool} (ht : Stands l standing [] counting t.orders t.trace) :
      Stands l standing' [] counting t.orders t.trace :=
    ht.mono (fun key hkey => (hstanding key hkey).1) fun _ hkey => by cases hkey
  rw [processEntry]
  cases htradable : ctx.tradable entry.wfmUrl with
  | none => exact ⟨counting, hsub h⟩
  | some itemInfo =>
      dsimp only
      rw [wp_bind, wp_read, next_ok, turnTo, wp_bind, wp_change, next_ok]
      have hturned : Stands l standing [] (l.counts entry) w.orders (w.trace ++ [.turn entry]) := h.noted fun t _ => rfl
      refine wp_seq ((quiet_demand (out.liveOrders entry.wfmUrl)).stands _ hturned) (fun live t ht => ?_)
        fun _ t ht => ⟨_, hsub ht⟩
      refine wp_seq (progressEntry_stands hmarket itemInfo _ _ slots (fun hsells hlive huncounted => ?_) hstanding ht)
        (fun _ u hu => ⟨_, hu⟩) fun _ u hu => ⟨_, hu⟩
      rw [h.1, priceOf_warm, hnamed itemInfo htradable] at hlive
      rw [hcounts] at huncounted
      exact hheld hsells (held_of_uncounted hsells hlive huncounted)

/-- Sales of distinct keys leave the orders of those to come. -/
theorem eachEntry_stands (hmarket : out.toOrdersOutside.Tagged) (hcounts : l.counts = ItemEntry.isCounted ctx l.start)
    (slots : Slots) {entries : List ItemEntry}
    (hnamed : ∀ entry ∈ entries, ∀ itemInfo, ctx.tradable entry.wfmUrl = some itemInfo → itemInfo.wfmId = entry.wfmId)
    (hdistinct : ((entries.filter ItemEntry.sells).map ItemEntry.key).Nodup)
    (h : Stands l (heldKeys l.start entries) [] counting w.orders w.trace) :
    (eachUntil (shouldStop out ctx) entries (processEntry num out ctx slots)).wp
      (fun _ t => ∃ counting, Stands l [] [] counting t.orders t.trace) w := by
  have hrest : ∀ done rest, entries = done ++ rest → ((rest.filter ItemEntry.sells).map ItemEntry.key).Nodup := by
    intro done rest hsplit
    rw [hsplit, List.filter_append, List.map_append] at hdistinct
    exact (List.nodup_append.mp hdistinct).2.1
  have hstop (done : List ItemEntry) : Keeps (fun w => ∀ rest, entries = done ++ rest →
      ∃ counting, Stands l (heldKeys l.start rest) [] counting w.orders w.trace) (shouldStop out ctx) :=
    shouldStop_quiet fun desk => ∀ rest, entries = done ++ rest →
      ∃ counting, Stands l (heldKeys l.start rest) [] counting (desk none).orders (desk none).trace
  refine wp_mono (wp_eachUntil hstop (fun done entry rest hsplit t ht => ?_) ?_) ?_
  · obtain ⟨counting, ht⟩ := ht _ hsplit
    have hin : entry ∈ entries := hsplit ▸ List.mem_append_right _ List.mem_cons_self
    have hothers : ∀ key ∈ heldKeys l.start rest, key ∈ heldKeys l.start (entry :: rest) ∧
        (entry.sells = true → key ≠ entry.key) := by
      intro key hkey
      obtain ⟨e, he, hsells, hheld, rfl⟩ := mem_heldKeys.mp hkey
      refine ⟨mem_heldKeys.mpr ⟨e, List.mem_cons_of_mem _ he, hsells, hheld, rfl⟩, fun hentry hsame => ?_⟩
      have hnodup := hrest done _ hsplit
      rw [List.filter_cons_of_pos hentry, List.map_cons, List.nodup_cons] at hnodup
      exact hnodup.1 (hsame ▸ List.mem_map_of_mem (List.mem_filter.mpr ⟨he, hsells⟩))
    refine wp_mono (processEntry_stands hmarket hcounts (hnamed entry hin) slots
      (fun hsells hheld => mem_heldKeys.mpr ⟨entry, List.mem_cons_self, hsells, hheld, rfl⟩) hothers ht) ?_
    intro _ u hu rest' hsplit'
    rw [hsplit, List.append_assoc, List.singleton_append] at hsplit'
    cases List.append_cancel_left hsplit'
    exact hu
  · intro rest hsplit
    rw [List.nil_append] at hsplit
    subst hsplit
    exact ⟨counting, h⟩
  · rintro _ t ⟨done, ⟨rest, hsplit⟩, ht⟩
    obtain ⟨counting, ht⟩ := ht rest hsplit.symm
    exact ⟨counting, ht.mono (fun _ hkey => by cases hkey) fun _ hkey => hkey⟩

theorem tryDelete_stands (hmarket : out.toOrdersOutside.Tagged) (id : String) :
    Keeps (fun w => Stands l [] [] counting w.orders w.trace) (tryDelete out id) := by
  have hdelete : Keeps (fun w => Stands l [] [] counting w.orders w.trace) (delete out.toOrdersOutside id) :=
    fun w h => delete_stands hmarket (fun _ hkey => by cases hkey) h
  exact hdelete.attempt.bind fun _ => .pure ()

theorem holdCap_stands (hmarket : out.toOrdersOutside.Tagged) (existing : List String) :
    Keeps (fun w => Stands l [] [] counting w.orders w.trace) (holdCap num out ctx existing) := by
  refine (Keeps.read _).bind fun orders => .ite (fun _ => ?_) fun _ => .pure ()
  exact .each fun order _ => .ite (fun _ => .pure ()) fun _ => tryDelete_stands hmarket order.id

theorem sweepOrphans_stands (hmarket : out.toOrdersOutside.Tagged) (entries : List ItemEntry) :
    Keeps (fun w => Stands l [] [] counting w.orders w.trace) (sweepOrphans out ctx entries) := by
  refine (quiet_ask _).stands.bind fun now => (Keeps.read _).bind fun orders => (Keeps.read _).bind fun seen => ?_
  exact Keeps.bind (.change fun w h => h) fun _ => .each fun id _ => tryDelete_stands hmarket id

theorem stands_start (ctx : TradeContext F) (hids : w.orders.DistinctIds) (entries : List ItemEntry)
    (wishList : List (String × String)) :
    Stands (cycleLedger ctx entries wishList w) (heldKeys w.orders entries) [] false w.orders w.trace := by
  refine ⟨rfl, [], (List.append_nil _).symm, fun _ => ⟨rfl, rfl, hids, ?_, ?_⟩⟩
  · intro key hkey
    obtain ⟨e, -, -, hheld, rfl⟩ := mem_heldKeys.mp hkey
    exact hheld
  · intro key hkey
    cases hkey

theorem processItems_stands (hmarket : out.toOrdersOutside.Tagged) {items : List ItemEntry}
    (hids : w.orders.DistinctIds)
    (hnamed : ∀ entry ∈ items, ∀ itemInfo, ctx.tradable entry.wfmUrl = some itemInfo → itemInfo.wfmId = entry.wfmId)
    (hdistinct : ((items.filter ItemEntry.sells).map ItemEntry.key).Nodup) (wishList : List (String × String)) :
    (processItems num out ctx items).wp (fun _ t => ∃ counting,
      Stands (cycleLedger ctx (byPriority items) wishList w) [] [] counting t.orders t.trace) w := by
  have hperm : (byPriority items).Perm items := List.perm_insertionSort _ _
  have hnodup : (((byPriority items).filter ItemEntry.sells).map ItemEntry.key).Nodup :=
    ((hperm.filter _).map _).nodup_iff.mpr hdistinct
  have hentries : (processEntries num out ctx (byPriority items)).wp (fun _ t => ∃ counting,
      Stands (cycleLedger ctx (byPriority items) wishList w) [] [] counting t.orders t.trace) w := by
    have hstart := stands_start ctx hids (byPriority items) wishList
    rw [processEntries, wp_bind, wp_read, next_ok]
    refine wp_seq ((quiet_demand out.wishListKeys).stands w hstart) (fun keys t ht => ?_) fun _ t ht => ⟨false, ?_⟩
    · refine wp_seq (eachEntry_stands hmarket rfl _ (fun entry hin => hnamed entry (hperm.mem_iff.mp hin)) hnodup ht)
        (fun _ u hu => hu) fun _ u hu => hu
    · exact ht.mono (fun _ hkey => by cases hkey) fun _ hkey => hkey
  refine wp_seq hentries (fun outcome t ht => ?_) fun _ t ht => ht
  obtain ⟨counting, ht⟩ := ht
  refine wp_seq (holdCap_stands hmarket _ t ht) (fun _ u hu => ?_) fun _ u hu => ⟨counting, hu⟩
  rw [wp_ite]
  refine ⟨fun _ => ?_, fun _ => ⟨counting, hu⟩⟩
  exact wp_seq (sweepOrphans_stands hmarket _ u hu) (fun _ v hv => ⟨counting, hv⟩) fun _ v hv => ⟨counting, hv⟩

end Stands

/-! ### Slots for counted sales -/

/-- After each write there are as many free slots as counted entries that wait for their order, and none of these ever
finds no slot. -/
def Step.KeepsRoom (l : Ledger) (earlier : List Step) : Step → Prop
  | .write w => l.backlog - (tally l.counts (earlier ++ [.write w])).counted ≤ w.orders.freeSlots
  | .blocked entry orderType route _ _ => orderType = .sell → route = .live → l.counts entry = false
  | .lookup .. | .turn _ => True

theorem others_le_concat (counts : ItemEntry → Bool) (steps later : List Step) :
    (tally counts steps).others ≤ (tally counts (steps ++ later)).others := by
  induction later using List.reverseRecOn with
  | nil => rw [List.append_nil]
  | append_singleton later step ih =>
      rw [← List.append_assoc, tally_concat]
      refine ih.trans ?_
      cases step with
      | write w =>
          rw [Tally.step]
          split
          · split
            · exact Nat.le_refl _
            · exact Nat.le_succ _
          · exact Nat.le_refl _
      | turn entry => exact Nat.le_refl _
      | lookup => exact Nat.le_refl _
      | blocked => exact Nat.le_refl _

section Cycle

variable {E F : Type} {num : PriceFloats F} {out : Outside E} {ctx : TradeContext F} {w : World E}

/-- While no write fails and the market gives each order an id of its own, sales of distinct items and sub-types that
the backlog does not count create no live order. -/
theorem others_eq_zero (hmarket : out.toOrdersOutside.Tagged) {items : List ItemEntry} (hids : w.orders.DistinctIds)
    (hnamed : ∀ entry ∈ items, ∀ itemInfo, ctx.tradable entry.wfmUrl = some itemInfo → itemInfo.wfmId = entry.wfmId)
    (hdistinct : ((items.filter ItemEntry.sells).map ItemEntry.key).Nodup) :
    ∃ steps, ((processItems num out ctx items).exec w).2.trace = w.trace ++ steps ∧
      ((∀ step ∈ steps, step.Succeeded ∧ step.DistinctIds) →
        (tally (ItemEntry.isCounted ctx w.orders) steps).others = 0) := by
  have hstands : (processItems num out ctx items).wp _ w := processItems_stands hmarket hids hnamed hdistinct []
  obtain ⟨counting, -, steps, htrace, hgood⟩ := hstands
  exact ⟨steps, htrace, fun hsteps => (hgood hsteps).others⟩

/-- In a cycle that starts with a free slot for each counted entry, the sales of distinct items have their slots. -/
theorem sales_keep_room (hmarket : out.toOrdersOutside.Tagged) {items : List ItemEntry} (hids : w.orders.DistinctIds)
    (hnamed : ∀ entry ∈ items, ∀ itemInfo, ctx.tradable entry.wfmUrl = some itemInfo → itemInfo.wfmId = entry.wfmId)
    (hdistinct : ((items.filter ItemEntry.sells).map ItemEntry.key).Nodup) {wishList : List (String × String)}
    (hkeys : (out.wishListKeys w.ext).1 = .ok wishList)
    (hfree : sellBacklog ctx w.orders (byPriority items) ≤ w.orders.freeSlots) :
    ∃ steps, ((processItems num out ctx items).exec w).2.trace = w.trace ++ steps ∧
      ((∀ step ∈ steps, step.Succeeded ∧ step.DistinctIds) →
        Throughout (Step.KeepsRoom (cycleLedger ctx (byPriority items) wishList w)) steps) := by
  obtain ⟨steps, htrace, hzero⟩ := @others_eq_zero _ _ num _ _ _ hmarket _ hids hnamed hdistinct
  have hheld : (processItems num out ctx items).wp _ w := processItems_held hkeys
  obtain ⟨counting, steps', htrace', -, htallied⟩ := hheld
  obtain rfl := List.append_cancel_left (htrace.symm.trans htrace')
  refine ⟨steps, htrace, fun hsteps => ?_⟩
  have hreserves := (htallied hfree fun step hstep => (hsteps step hstep).1).reserves
  have hnone : ∀ pre post, steps = pre ++ post → (tally (ItemEntry.isCounted ctx w.orders) pre).others = 0 := by
    intro pre post hsplit
    have hle := others_le_concat (ItemEntry.isCounted ctx w.orders) pre post
    rw [← hsplit, hzero hsteps] at hle
    exact Nat.le_zero.mp hle
  intro before step after hsplit
  have hstep := hreserves before step after hsplit
  cases step with
  | write write =>
      have hnow := hnone (before ++ [.write write]) after (by rw [hsplit, List.append_assoc, List.singleton_append])
      change _ ≤ write.orders.freeSlots + (tally (ItemEntry.isCounted ctx w.orders) _).others at hstep
      rw [hnow, Nat.add_zero] at hstep
      exact hstep
  | blocked entry orderType route wishList victim =>
      intro hsell hlive
      by_contra hcounts
      have hothers := hstep hsell hlive (Bool.eq_true_of_not_eq_false hcounts)
      exact absurd (hnone before _ hsplit) (Nat.pos_iff_ne_zero.mp hothers)
  | lookup => trivial
  | turn entry => trivial

/-- The sale of the arcane has its order, and the one of the prism is counted. -/
theorem sales_keep_room_prism :
    Throughout
      (Step.KeepsRoom (cycleLedger .warm (byPriority [.bid "lens", .sale 7 "e", .sale 8 "prism"]) []
        (World.selling ["a", "b", "c", "d", "e"])))
      ((processItems .whole (.selling 6) .warm [.bid "lens", .sale 7 "e", .sale 8 "prism"]).exec
        (World.selling ["a", "b", "c", "d", "e"])).2.trace := by
  have hurls : ∀ entry ∈ ([.bid "lens", .sale 7 "e", .sale 8 "prism"] : List ItemEntry),
      entry.wfmUrl = entry.wfmId := by
    decide
  obtain ⟨steps, htrace, hroom⟩ := @sales_keep_room Nat Int .whole (.selling 6) .warm
    (World.selling ["a", "b", "c", "d", "e"]) (tagged_willing [] .spread) [.bid "lens", .sale 7 "e", .sale 8 "prism"]
    (by decide +kernel)
    (fun entry hin itemInfo htradable => by
      cases htradable
      exact hurls entry hin)
    (by decide +kernel) [] rfl (by decide +kernel)
  have hsteps : steps = ((processItems .whole (.selling 6) .warm [.bid "lens", .sale 7 "e", .sale 8 "prism"]).exec
      (World.selling ["a", "b", "c", "d", "e"])).2.trace := htrace.symm
  rw [← hsteps]
  refine hroom ?_
  rw [hsteps]
  decide +kernel

end Cycle

end Quantframe.Trader
