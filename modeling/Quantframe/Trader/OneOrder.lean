import Quantframe.Lib.Log
import Quantframe.Trader.Airtight
import Quantframe.Trader.Deletes

/-!
# One managed order for each key

A look reads one of two stores. While the other one holds no order of the key, a key has at most one
cached order, and the look finds it.
-/

namespace Quantframe.Trader

open Lib Lib.Effect Market

def UniqueKeys (o : TradeOrders) : Prop := ∀ side, (o.cacheOrders.keys side).Nodup

/-- The cached orders of a key and side are in the store that the route reads. -/
def Covers (o : TradeOrders) (wfmId : String) (subType : WFSubType) (side : OrderType) (route : Route) : Prop :=
  ∀ x ∈ o.cacheOrders.side side, x.itemId = wfmId ∧ x.subtype = subType → x ∈ (o.store route).side side

/-- A look is straight where no order of its key lies in the store that it does not read. -/
def Step.Straight : Step → Prop
  | .lookup wfmId subType side route _ orders => Covers orders wfmId subType side route
  | .turn _ | .blocked .. | .write _ => True

/-- After a write each key has at most one cached order; a look finds the one its key has. -/
def Step.Managed : Step → Prop
  | .lookup wfmId subType side _ found orders =>
      UniqueKeys orders ∧ found = orders.cacheOrders.findOrder wfmId subType side
  | .write w => UniqueKeys w.orders
  | .turn _ | .blocked .. => True

instance (o : TradeOrders) (wfmId : String) (subType : WFSubType) (side : OrderType) (route : Route) :
    Decidable (Covers o wfmId subType side route) := by
  unfold Covers
  infer_instance

instance : DecidablePred Step.Straight
  | .lookup wfmId subType side route _ orders =>
      inferInstanceAs (Decidable (Covers orders wfmId subType side route))
  | .turn _ | .blocked .. | .write _ => isTrue trivial

/-- The market's answer to a create is an order of what was asked for. -/
def OrdersOutside.Faithful {E : Type} (out : OrdersOutside E) : Prop :=
  ∀ params e o e', out.create params e = (.ok o, e') →
    o.itemId = params.itemId ∧ o.orderType = params.orderType ∧ o.subtype = params.subtype.getD .default

/-- The key a write may add to a side. -/
def Action.newKeys (side : OrderType) : Action → List (String × WFSubType)
  | .create params _ => if params.orderType = side then [(params.itemId, params.subtype.getD .default)] else []
  | .update _ _ | .updateLocal _ _ | .delete _ | .refresh => []

def Action.keepsRank : Action → Prop
  | .update _ params | .updateLocal _ params => params.rank = none
  | .create _ _ | .delete _ | .refresh => True

section Keys

variable {E : Type} {out : OrdersOutside E} {o after : TradeOrders} {action : Action} {sent succeeded : Bool}

/-- A write to the simulated book, as the keys see it. -/
theorem keys_of_book (hsided : o.Sided) {book : OrderList} (hbook : book.Sided) {side : OrderType}
    {added : List (String × WFSubType)} (hkeys : (book.keys side).Subperm (added ++ o.book.keys side)) :
    (({ o with book := book } : TradeOrders).cacheOrders.keys side).Subperm
      (added ++ o.cacheOrders.keys side) := by
  have hafter := TradeOrders.cacheOrders_keys (o := { o with book := book }) ⟨hsided.live, hbook⟩ side
  have hbefore := TradeOrders.cacheOrders_keys hsided side
  refine hafter.subperm_right.mpr ?_
  refine (hbefore.append_left added).subperm_left.mpr ?_
  have hreal : ({ o with book := book } : TradeOrders).real = o.real := rfl
  rw [hreal, ← List.append_assoc]
  refine (List.Subperm.append (List.Subperm.refl (o.real.keys side)) hkeys).trans ?_
  rw [← List.append_assoc]
  exact (List.perm_append_comm.append_right _).subperm

/-- A write to the client's orders, as the keys see it. -/
theorem keys_of_live (hsided : o.Sided) {f : OrderList → OrderList} (hf : ∀ l : OrderList, l.Sided → (f l).Sided)
    {failures : Nat} {side : OrderType} {added : List (String × WFSubType)}
    (hkeys : ∀ l : OrderList, ((f l).keys side).Subperm (added ++ l.keys side)) :
    (({ o.mapLive f with failures := failures } : TradeOrders).cacheOrders.keys side).Subperm
      (added ++ o.cacheOrders.keys side) := by
  have hafter := TradeOrders.cacheOrders_keys (hsided.mapLive hf) side
  have hbefore := TradeOrders.cacheOrders_keys hsided side
  have hreal : ((o.mapLive f).real.keys side).Subperm (added ++ o.real.keys side) := by
    rcases o.real_mapLive f with h | h
    · rw [h]
      exact hkeys _
    · rw [h]
      exact (List.sublist_append_right added _).subperm
  refine hafter.subperm_right.mpr ?_
  refine (hbefore.append_left added).subperm_left.mpr ?_
  rw [← List.append_assoc]
  exact List.Subperm.append hreal (List.Subperm.refl (o.book.keys side))

theorem Does.keys (h : Does out o action sent true after) (hsided : o.Sided) (hmarket : out.Faithful)
    (hrank : action.keepsRank) (hrefresh : action ≠ .refresh) (side : OrderType) :
    (after.cacheOrders.keys side).Subperm (action.newKeys side ++ o.cacheOrders.keys side) := by
  have hadd (l : OrderList) {order : Order} {key : String × WFSubType} {orderType : OrderType}
      (hkey : order.key = key) (hside : order.orderType = orderType) :
      ((l.add order).keys side).Subperm ((if orderType = side then [key] else []) ++ l.keys side) := by
    rw [OrderList.add_keys, hkey, hside]
    exact List.perm_append_comm.subperm
  cases h with
  | simulatedCreate params forcedBy id => exact keys_of_book hsided (hsided.book.add _) (hadd _ rfl rfl)
  | liveCreate params hanswer =>
      obtain ⟨hitem, hside, hsubtype⟩ := hmarket _ _ _ _ hanswer
      refine keys_of_live hsided (fun l hl => hl.add _) fun l => hadd l ?_ hside
      simp [Order.key, hitem, hsubtype]
  | bookUpdate params =>
      refine keys_of_book hsided (hsided.book.update _ _) ?_
      rw [OrderList.update_keys hrank]
      exact List.Subperm.refl _
  | liveUpdate params =>
      refine keys_of_live hsided (fun l hl => hl.update _ _) fun l => ?_
      rw [OrderList.update_keys hrank]
      exact List.Subperm.refl _
  | bookLocal params =>
      refine keys_of_book hsided (hsided.book.update _ _) ?_
      rw [OrderList.update_keys hrank]
      exact List.Subperm.refl _
  | liveLocal params =>
      refine keys_of_live hsided (fun l hl => hl.update _ _) fun l => ?_
      rw [OrderList.update_keys hrank]
      exact List.Subperm.refl _
  | bookDelete => exact keys_of_book hsided (hsided.book.removeById _) (OrderList.removeById_keys _ _ _).subperm
  | liveDelete =>
      exact keys_of_live hsided (fun l hl => hl.removeById _) fun l => (OrderList.removeById_keys _ _ _).subperm
  | refresh => exact absurd rfl hrefresh

end Keys

/-! ### What a look finds -/

section Looks

variable {o : TradeOrders} {wfmId : String} {subType : WFSubType} {side : OrderType} {route : Route} {warm : Bool}

theorem OrderList.findOrder_eq_some {l : OrderList} {x : Order} (h : l.findOrder wfmId subType side = some x) :
    x ∈ l.side side ∧ x.itemId = wfmId ∧ x.subtype = subType := by
  have hmatches := List.find?_some h
  exact ⟨List.mem_of_find?_eq_some h, of_decide_eq_true hmatches⟩

theorem OrderList.findOrder_eq_none {l : OrderList} :
    l.findOrder wfmId subType side = none ↔ (wfmId, subType) ∉ l.keys side := by
  rw [OrderList.findOrder, List.find?_eq_none, OrderList.keys, List.mem_map]
  constructor
  · rintro h ⟨x, hx, hkey⟩
    refine h x hx (decide_eq_true ?_)
    exact ⟨congrArg Prod.fst hkey, congrArg Prod.snd hkey⟩
  · intro h x hx hkey
    have hkey := of_decide_eq_true hkey
    exact h ⟨x, hx, Prod.ext hkey.1 hkey.2⟩

theorem UniqueKeys.eq (h : UniqueKeys o) {x y : Order} (hx : x ∈ o.cacheOrders.side side)
    (hy : y ∈ o.cacheOrders.side side) (hkey : x.key = y.key) : x = y :=
  List.inj_on_of_nodup_map (h side) hx hy hkey

theorem store_subset (hsided : o.Sided) {x : Order}
    (hx : x ∈ (o.store (routeFor o.globalDryRun warm)).side side) : x ∈ o.cacheOrders.side side := by
  refine (TradeOrders.cacheOrders_side hsided side).mem_iff.mpr (List.mem_append.mpr ?_)
  cases hroute : routeFor o.globalDryRun warm with
  | dryRun forcedBy =>
      rw [hroute] at hx
      exact .inr hx
  | live =>
      rw [hroute] at hx
      left
      rw [TradeOrders.store] at hx
      rw [TradeOrders.real, (routeFor_eq_live.mp hroute).1]
      cases hlive : o.live with
      | none =>
          rw [hlive] at hx
          exact hx
      | some client =>
          rw [hlive] at hx
          exact hx

/-- A straight look among unique keys finds what is cached. -/
theorem Covers.findOrder (hcovers : Covers o wfmId subType side (routeFor o.globalDryRun warm))
    (hsided : o.Sided) (hunique : UniqueKeys o) :
    o.findOrder wfmId subType side (routeFor o.globalDryRun warm) =
      o.cacheOrders.findOrder wfmId subType side := by
  rw [TradeOrders.findOrder]
  cases hcache : o.cacheOrders.findOrder wfmId subType side with
  | none =>
      rw [OrderList.findOrder_eq_none] at hcache ⊢
      intro hmem
      obtain ⟨x, hx, hkey⟩ := List.mem_map.mp hmem
      exact hcache (List.mem_map.mpr ⟨x, store_subset hsided hx, hkey⟩)
  | some x =>
      obtain ⟨hx, hkey⟩ := OrderList.findOrder_eq_some hcache
      cases hfound : (o.store (routeFor o.globalDryRun warm)).findOrder wfmId subType side with
      | none =>
          rw [OrderList.findOrder_eq_none] at hfound
          exact absurd (List.mem_map.mpr ⟨x, hcovers x hx hkey, Prod.ext hkey.1 hkey.2⟩) hfound
      | some y =>
          obtain ⟨hy, hkey'⟩ := OrderList.findOrder_eq_some hfound
          have hsame : y.key = x.key := Prod.ext (hkey'.1.trans hkey.1.symm) (hkey'.2.trans hkey.2.symm)
          rw [hunique.eq (store_subset hsided hy) hx hsame]

/-- Where a look finds what is cached, nothing of its key lies elsewhere. -/
theorem covers_of_findOrder (hunique : UniqueKeys o)
    (hfound : o.findOrder wfmId subType side route = o.cacheOrders.findOrder wfmId subType side) :
    Covers o wfmId subType side route := by
  intro x hx hkey
  cases hcache : o.cacheOrders.findOrder wfmId subType side with
  | none =>
      rw [OrderList.findOrder_eq_none] at hcache
      exact absurd (List.mem_map.mpr ⟨x, hx, Prod.ext hkey.1 hkey.2⟩) hcache
  | some y =>
      obtain ⟨hy, hkey'⟩ := OrderList.findOrder_eq_some hcache
      have hsame : x.key = y.key := Prod.ext (hkey.1.trans hkey'.1.symm) (hkey.2.trans hkey'.2.symm)
      rw [hunique.eq hx hy hsame]
      rw [hcache, TradeOrders.findOrder] at hfound
      exact (OrderList.findOrder_eq_some hfound).1

end Looks

/-! ### Over any moves -/

/-- A look reports what its store holds. -/
def Step.Reported : Step → Prop
  | .lookup wfmId subType side route found orders => found = orders.findOrder wfmId subType side route
  | .turn _ | .blocked .. | .write _ => True

structure OneEach (d : Desk) : Prop where
  unique : UniqueKeys d.orders
  managed : ∀ step ∈ d.trace, step.Managed
  looked : ∀ look, d.looked = some look → look.found = none →
    (look.wfmId, look.subType) ∉ d.orders.cacheOrders.keys look.orderType

/-- Holds of every desk; while no write fails and every look is straight, `one` tells more. -/
structure OneOrderInv (d : Desk) : Prop where
  sided : d.orders.Sided
  reported : ∀ step ∈ d.trace, step.Reported
  one : (∀ step ∈ d.trace, step.Straight ∧ step.Succeeded) → OneEach d

section Steps

variable {E : Type} {out : OrdersOutside E} {d d' : Desk}

theorem OneEach.look (h : OneEach d) (hsided : d.orders.Sided) {wfmId : String} {subType : WFSubType}
    {side : OrderType} {warm : Bool} (hcovers : Covers d.orders wfmId subType side (routeFor d.orders.globalDryRun warm)) :
    OneEach (d.look wfmId subType side (routeFor d.orders.globalDryRun warm)) := by
  have hfound := hcovers.findOrder hsided h.unique
  refine ⟨h.unique, forall_concat h.managed ⟨h.unique, hfound⟩, ?_⟩
  intro look hlook hnone
  cases hlook
  exact OrderList.findOrder_eq_none.mp (hfound.symm.trans hnone)

theorem Desk.Allows.keepsRank {action : Action} (h : d.Allows action) : action.keepsRank := by
  cases action with
  | update id params => exact h.1
  | updateLocal id params => exact h.1
  | create params route => trivial
  | delete id => trivial
  | refresh => trivial

theorem OneEach.newKeys (h : OneEach d) {action : Action} (hallow : d.Allows action) (side : OrderType) :
    (action.newKeys side ++ d.orders.cacheOrders.keys side).Nodup := by
  cases action with
  | create params route =>
      obtain ⟨look, hlook, hnone, hitem, hside, hsubtype, -⟩ := hallow
      rw [Action.newKeys]
      split
      next heq =>
        refine List.nodup_cons.mpr ⟨?_, h.unique side⟩
        rw [hitem, hsubtype, ← heq, hside]
        exact h.looked look hlook hnone
      next => exact h.unique side
  | update id params => exact h.unique side
  | updateLocal id params => exact h.unique side
  | delete id => exact h.unique side
  | refresh => exact h.unique side

theorem OneEach.write (h : OneEach d) (hsided : d.orders.Sided) (hmarket : out.Faithful) {action : Action}
    {sent : Bool} {after : TradeOrders} (hallow : d.Allows action) (hrefresh : action ≠ .refresh)
    (hdoes : Does out d.orders action sent true after) : OneEach (d.wrote action sent true after) := by
  have hkeys := hdoes.keys hsided hmarket hallow.keepsRank hrefresh
  have hunique : UniqueKeys after := by
    intro side
    obtain ⟨l, hperm, hsub⟩ := hkeys side
    exact hperm.nodup_iff.mp ((h.newKeys hallow side).sublist hsub)
  refine ⟨hunique, forall_concat h.managed hunique, ?_⟩
  intro look hlook hnone hmem
  have hold := h.looked look (Action.found_of_rest hlook).1 hnone
  rcases List.mem_append.mp ((hkeys look.orderType).subset hmem) with hnew | hthere
  · cases action with
    | delete id => cases hnew
    | refresh => exact hrefresh rfl
    | create params route => cases hlook
    | update id params => cases hlook
    | updateLocal id params => cases hlook
  · exact hold hthere

theorem OneOrderInv.move (h : OneOrderInv d) (hmarket : out.Faithful) (hmove : Move out d d') :
    OneOrderInv d' := by
  cases hmove with
  | turn processing =>
      refine ⟨h.sided, h.reported, fun hgood => ⟨(h.one hgood).unique, (h.one hgood).managed, fun _ hlook => ?_⟩⟩
      cases hlook
  | sweep settings now hsweep =>
      exact ⟨h.sided, h.reported, fun hgood => ⟨(h.one hgood).unique, (h.one hgood).managed, (h.one hgood).looked⟩⟩
  | turnTo entry warm =>
      refine ⟨h.sided, forall_concat h.reported trivial, ?_⟩
      intro hgood
      have hone := h.one fun step hstep => hgood step (List.mem_append_left _ hstep)
      refine ⟨hone.unique, forall_concat hone.managed trivial, ?_⟩
      intro _ hlook
      cases hlook
  | blocked entry orderType route wishList victim =>
      refine ⟨h.sided, forall_concat h.reported trivial, ?_⟩
      intro hgood
      have hone := h.one fun step hstep => hgood step (List.mem_append_left _ hstep)
      exact ⟨hone.unique, forall_concat hone.managed trivial, hone.looked⟩
  | look wfmId subType side hwarm =>
      refine ⟨h.sided, forall_concat h.reported rfl, ?_⟩
      intro hgood
      have hone := h.one fun step hstep => hgood step (List.mem_append_left _ hstep)
      exact hone.look h.sided (hgood _ List.mem_concat_self).1
  | @write action sent succeeded after hallow hdoes =>
      refine ⟨hdoes.sided h.sided, forall_concat h.reported trivial, ?_⟩
      intro hgood
      have hone := h.one fun step hstep => hgood step (List.mem_append_left _ hstep)
      have hsucceeded : succeeded = true := (hgood _ List.mem_concat_self).2
      subst hsucceeded
      refine hone.write h.sided hmarket hallow ?_ hdoes
      -- the orders are read again only after a write that failed
      rintro rfl
      obtain ⟨write, hwrite, hfailed⟩ := hallow
      have : write.succeeded = true := (hgood _ (List.mem_append_left _ hwrite)).2
      rw [hfailed] at this
      cases this

theorem OneOrderInv.moves (h : OneOrderInv d) (hmarket : out.Faithful) (hmoves : Moves out d d') :
    OneOrderInv d' := by
  induction hmoves with
  | refl => exact h
  | tail _ hmove ih => exact ih.move hmarket hmove

end Steps

/-! ### Over any cycles -/

section Runs

variable {E F : Type} (num : PriceFloats F) (out : Outside E)

/-- Cycles with nothing done to the orders between them. -/
def cycles (ctxs : List (TradeContext F)) (w : World E) : World E := rounds num out (ctxs.map (Round.mk id)) w

theorem OneOrderInv.round (hmarket : out.Faithful) (ctx : TradeContext F) {w : World E}
    (h : OneOrderInv (w.desk none)) : OneOrderInv (((Round.mk id ctx).run num out w).desk none) := by
  have hreached : Reached out.toOrdersOutside _ w.orders.globalDryRun ((Round.mk id ctx).run num out w) :=
    check_reached _ ⟨_, none, Relation.ReflTransGen.refl, rfl, rfl⟩
  obtain ⟨p, looked, hat⟩ := hreached
  rw [TradeOrders.mapLive_id] at hat
  have hend := h.moves hmarket hat.moves
  refine ⟨hend.sided, hend.reported, fun hgood => ?_⟩
  obtain ⟨hunique, hmanaged, -⟩ := hend.one hgood
  exact ⟨hunique, hmanaged, fun look hlook => by cases hlook⟩

theorem OneOrderInv.cycles (hmarket : out.Faithful) {w : World E} (h : OneOrderInv (w.desk none))
    (ctxs : List (TradeContext F)) : OneOrderInv ((cycles num out ctxs w).desk none) := by
  rw [Trader.cycles, rounds, List.foldl_map]
  exact List.foldlRecOn ctxs _ (motive := fun w : World E => OneOrderInv (w.desk none)) h
    fun w hw ctx _ => hw.round num out hmarket ctx

theorem one_managed_order (hmarket : out.Faithful) {orders : TradeOrders} (hsided : orders.Sided)
    (hunique : UniqueKeys orders) (ctxs : List (TradeContext F)) (ext : E)
    (hsucceeded : ∀ step ∈ (cycles num out ctxs (.start orders ext)).trace, step.Succeeded) :
    (UniqueKeys (cycles num out ctxs (.start orders ext)).orders ∧
      ∀ step ∈ (cycles num out ctxs (.start orders ext)).trace, step.Managed) ↔
    ∀ step ∈ (cycles num out ctxs (.start orders ext)).trace, step.Straight := by
  have hstart : OneOrderInv ((World.start orders ext).desk none) := by
    refine ⟨hsided, fun step hstep => ?_, fun _ => ⟨hunique, fun step hstep => ?_, fun look hlook => ?_⟩⟩
    · cases hstep
    · cases hstep
    · cases hlook
  have hend := hstart.cycles num out hmarket ctxs
  constructor
  · rintro ⟨-, hmanaged⟩ step hstep
    have hreported := hend.reported step hstep
    cases step with
    | write w => trivial
    | turn entry => trivial
    | blocked entry orderType route wishList victim => trivial
    | lookup wfmId subType side route found orders =>
        obtain ⟨hkeys, hfound⟩ := hmanaged _ hstep
        exact covers_of_findOrder hkeys (hreported.symm.trans hfound)
  · intro hstraight
    have hone := hend.one fun step hstep => ⟨hstraight step hstep, hsucceeded step hstep⟩
    exact ⟨hone.unique, hone.managed⟩

end Runs

theorem uniqueKeys_empty (limit : Nat) : UniqueKeys (.new (some ⟨.new [], limit⟩) false) := by
  intro side
  cases side <;> exact List.nodup_nil

theorem sided_empty (limit : Nat) : (TradeOrders.new (some ⟨.new [], limit⟩) false).Sided := by
  refine ⟨fun client hlive => ?_, OrderList.sided_new []⟩
  cases hlive
  exact OrderList.sided_new []

theorem faithful_willing (entries : List ItemEntry) (book : LiveOrders) :
    (Outside.willing entries book).toOrdersOutside.Faithful := by
  intro params e o e' h
  cases h
  exact ⟨rfl, rfl, rfl⟩

theorem one_managed_order_warm :
    UniqueKeys (cycles .whole (.willing [.bid "lens"] .spread) [.sample .plain true, .sample .plain true]
        (.start (.new (some ⟨.new [], 100⟩) false) 0)).orders ∧
      ∀ step ∈ (cycles .whole (.willing [.bid "lens"] .spread) [.sample .plain true, .sample .plain true]
        (.start (.new (some ⟨.new [], 100⟩) false) 0)).trace, step.Managed :=
  (one_managed_order .whole _ (faithful_willing _ _) (sided_empty 100) (uniqueKeys_empty 100) _ 0
    (by decide +kernel)).mpr (by decide +kernel)

/-- The item cools: its live order stays, and a simulated one is created beside it. -/
theorem cooled_item_has_two_orders :
    UniqueKeys (.new (some ⟨.new [], 100⟩) false) ∧
    (∀ step ∈ (cycles .whole (.willing [.bid "lens"] .spread) [.sample .plain true, .sample .plain false]
      (.start (.new (some ⟨.new [], 100⟩) false) 0)).trace, step.Succeeded) ∧
    ¬ UniqueKeys (cycles .whole (.willing [.bid "lens"] .spread) [.sample .plain true, .sample .plain false]
      (.start (.new (some ⟨.new [], 100⟩) false) 0)).orders := by
  refine ⟨uniqueKeys_empty 100, by decide +kernel, fun h => ?_⟩
  have hbuys := h .buy
  revert hbuys
  decide +kernel

end Quantframe.Trader
