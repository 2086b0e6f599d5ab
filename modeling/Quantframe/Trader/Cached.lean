import Mathlib.Data.List.Perm.Subperm
import Quantframe.Trader.Moves

/-!
# The cached orders

The cached orders of a side are those of the client, outside global dry-run, and those of the simulated
book. What each write does to them is said once.
-/

namespace Quantframe.Market

/-- What the trader keeps at most one order for, on each side. -/
def Order.key (o : Order) : String × WFSubType := (o.itemId, o.subtype)

namespace OrderList

/-- Each list holds orders of its own side, as `new` and `add` put them. -/
def Sided (l : OrderList) : Prop := ∀ side, ∀ o ∈ l.side side, o.orderType = side

def keys (l : OrderList) (side : OrderType) : List (String × WFSubType) := (l.side side).map Order.key

variable {l : OrderList} {side : OrderType}

theorem mem_toVec {o : Order} : o ∈ l.toVec ↔ o ∈ l.side .sell ∨ o ∈ l.side .buy := List.mem_append

theorem new_side (orders : List Order) (side : OrderType) :
    ((new orders).side side).Perm (orders.filter fun o => o.orderType = side) := by
  cases side with
  | sell => exact List.perm_insertionSort _ _
  | buy => exact List.perm_insertionSort _ _

theorem sided_new (orders : List Order) : (new orders).Sided := by
  intro side o ho
  exact of_decide_eq_true (List.mem_filter.mp ((new_side orders side).mem_iff.mp ho)).2

theorem Sided.filter_toVec (h : l.Sided) (side : OrderType) :
    l.toVec.filter (fun o => o.orderType = side) = l.side side := by
  have hall (s : OrderType) (hs : s = side) :
      (l.side s).filter (fun o => o.orderType = side) = l.side s := by
    refine List.filter_eq_self.mpr fun o ho => ?_
    rw [h s o ho, hs, decide_eq_true rfl]
  have hnone (s : OrderType) (hs : s ≠ side) : (l.side s).filter (fun o => o.orderType = side) = [] := by
    refine List.filter_eq_nil_iff.mpr fun o ho => ?_
    rw [h s o ho, decide_eq_false hs]
    exact Bool.false_ne_true
  rw [toVec, List.filter_append]
  cases side with
  | sell =>
      have hs := hall .sell rfl
      have hb := hnone .buy nofun
      simp only [OrderList.side] at hs hb ⊢
      rw [hs, hb, List.append_nil]
  | buy =>
      have hs := hnone .sell nofun
      have hb := hall .buy rfl
      simp only [OrderList.side] at hs hb ⊢
      rw [hs, hb, List.nil_append]

theorem add_side (l : OrderList) (order : Order) (side : OrderType) :
    (l.add order).side side = l.side side ++ if order.orderType = side then [order] else [] := by
  unfold add
  cases horder : order.orderType <;> cases side <;> simp [OrderList.side]

theorem removeById_side (l : OrderList) (id : String) (side : OrderType) :
    (l.removeById id).side side = (l.side side).filter fun o => o.id ≠ id := by
  cases side <;> rfl

theorem updateFirst_map {α : Type} {f : Order → α} {args : UpdateOrderParams}
    (hf : ∀ o : Order, f (o.update args) = f o) (orders : List Order) (id : String) :
    (updateFirst orders id args).map f = orders.map f := by
  rw [updateFirst]
  generalize orders.findIdx _ = i
  induction orders generalizing i with
  | nil => cases i <;> rfl
  | cons o orders ih =>
      cases i with
      | zero => simp [hf]
      | succ i => simp [ih]

/-- What an update leaves alone in an order, it leaves alone in every order of a list. -/
theorem update_map {α : Type} {f : Order → α} {args : UpdateOrderParams}
    (hf : ∀ o : Order, f (o.update args) = f o) (l : OrderList) (id : String) (side : OrderType) :
    ((l.update id args).side side).map f = (l.side side).map f := by
  unfold update
  split
  · cases side with
    | sell => rfl
    | buy => exact updateFirst_map hf _ id
  · cases side with
    | sell => exact updateFirst_map hf _ id
    | buy => rfl

theorem Sided.add (h : l.Sided) (order : Order) : (l.add order).Sided := by
  intro side o ho
  rw [add_side, List.mem_append] at ho
  rcases ho with hold | hnew
  · exact h side o hold
  · split at hnew
    next heq =>
      cases List.mem_singleton.mp hnew
      exact heq
    next => cases hnew

theorem Sided.removeById (h : l.Sided) (id : String) : (l.removeById id).Sided := by
  intro side o ho
  rw [removeById_side] at ho
  exact h side o (List.mem_of_mem_filter ho)

theorem Sided.update (h : l.Sided) (id : String) (args : UpdateOrderParams) : (l.update id args).Sided := by
  intro side o ho
  have hmap : ((l.update id args).side side).map Order.orderType = (l.side side).map Order.orderType :=
    update_map (fun _ => rfl) l id side
  have hmem : o.orderType ∈ ((l.update id args).side side).map Order.orderType := List.mem_map_of_mem ho
  rw [hmap] at hmem
  obtain ⟨o', ho', heq⟩ := List.mem_map.mp hmem
  exact heq.symm.trans (h side o' ho')

theorem add_keys (l : OrderList) (order : Order) (side : OrderType) :
    (l.add order).keys side = l.keys side ++ if order.orderType = side then [order.key] else [] := by
  rw [keys, add_side, List.map_append, keys]
  split <;> rfl

theorem removeById_keys (l : OrderList) (id : String) (side : OrderType) :
    ((l.removeById id).keys side).Sublist (l.keys side) := by
  rw [keys, removeById_side]
  exact List.filter_sublist.map Order.key

theorem update_keys {args : UpdateOrderParams} (hrank : args.rank = none) (l : OrderList) (id : String)
    (side : OrderType) : (l.update id args).keys side = l.keys side := by
  refine update_map (fun o => ?_) l id side
  simp [Order.key, Order.update, hrank]

end OrderList

end Quantframe.Market

namespace Quantframe.Trader

open Market

namespace TradeOrders

structure Sided (o : TradeOrders) : Prop where
  live : ∀ client, o.live = some client → client.orders.Sided
  book : o.book.Sided

/-- The client's orders that are cached. -/
def real (o : TradeOrders) : OrderList :=
  match o.live, o.globalDryRun with
  | some client, false => client.orders
  | _, _ => .new []

variable {o : TradeOrders}

theorem real_eq (o : TradeOrders) :
    (∃ client, o.live = some client ∧ o.globalDryRun = false ∧ o.real = client.orders ∧
      o.cacheOrders = .new (client.orders.toVec ++ o.book.toVec)) ∨
    (o.real = .new [] ∧ o.cacheOrders = o.book) := by
  unfold real cacheOrders
  cases hlive : o.live with
  | none => exact .inr ⟨rfl, rfl⟩
  | some client =>
      cases hdryRun : o.globalDryRun with
      | false => exact .inl ⟨client, rfl, rfl, rfl, rfl⟩
      | true => exact .inr ⟨rfl, rfl⟩

theorem new_nil_side (side : OrderType) : (OrderList.new []).side side = [] :=
  (OrderList.new_side [] side).eq_nil

theorem Sided.real (h : o.Sided) : o.real.Sided := by
  rcases o.real_eq with ⟨client, hlive, -, hreal, -⟩ | ⟨hreal, -⟩
  · rw [hreal]
    exact h.live client hlive
  · rw [hreal]
    exact OrderList.sided_new []

theorem cacheOrders_side (h : o.Sided) (side : OrderType) :
    (o.cacheOrders.side side).Perm (o.real.side side ++ o.book.side side) := by
  rcases o.real_eq with ⟨client, hlive, -, hreal, hcache⟩ | ⟨hreal, hcache⟩
  · rw [hcache, hreal]
    have hperm := OrderList.new_side (client.orders.toVec ++ o.book.toVec) side
    rw [List.filter_append, (h.live client hlive).filter_toVec, h.book.filter_toVec] at hperm
    exact hperm
  · rw [hcache, hreal, new_nil_side, List.nil_append]

theorem cacheOrders_keys (h : o.Sided) (side : OrderType) :
    (o.cacheOrders.keys side).Perm (o.real.keys side ++ o.book.keys side) := by
  have := (cacheOrders_side h side).map Order.key
  rwa [List.map_append] at this

theorem real_mapLive (o : TradeOrders) (f : OrderList → OrderList) :
    (o.mapLive f).real = f o.real ∨ (o.mapLive f).real = o.real := by
  unfold real mapLive
  cases hlive : o.live with
  | none => exact .inr rfl
  | some client =>
      cases hdryRun : o.globalDryRun with
      | false => exact .inl rfl
      | true => exact .inr rfl

theorem mapLive_id (o : TradeOrders) : o.mapLive id = o := by
  rcases o with ⟨live, globalDryRun, book, failures⟩
  cases live <;> rfl

theorem Sided.mapLive (h : o.Sided) {f : OrderList → OrderList} (hf : ∀ l : OrderList, l.Sided → (f l).Sided) :
    (o.mapLive f).Sided := by
  refine ⟨fun client hlive => ?_, h.book⟩
  obtain ⟨client', hlive', rfl⟩ := Option.map_eq_some_iff.mp hlive
  exact hf _ (h.live client' hlive')

end TradeOrders

end Quantframe.Trader
