import Quantframe.Lib.Table
import Quantframe.Market.Orders

/-!
# The order cache by id

What an update and a close do to the cached order of an id, where no two cached orders have one id.
-/

namespace Quantframe

namespace Market

theorem subU32_of_le {a b : Nat} (h : b ≤ a) (ha : a < 2 ^ 32) : subU32 a b = a - b := by
  rw [subU32]
  omega

theorem subU32_eq_zero {a b : Nat} (ha : a < 2 ^ 32) (hb : b < 2 ^ 32) : subU32 a b = 0 ↔ b = a := by
  rw [subU32]
  omega

namespace OrderList

variable {list : OrderList} {order : Order} {id : String} {args : UpdateOrderParams}

/-- No two cached orders have one id. -/
def IdsUnique (list : OrderList) : Prop := (list.toVec.map Order.id).Nodup

theorem mem_toVec_of_findOrder {wfmId : String} {subType : WFSubType} {orderType : OrderType}
    (h : list.findOrder wfmId subType orderType = some order) : order ∈ list.toVec := by
  have hside : order ∈ list.side orderType := List.mem_of_find?_eq_some h
  cases orderType with
  | sell => exact List.mem_append_left _ hside
  | buy => exact List.mem_append_right _ hside

/-- The id of a cached order leads to it, whichever side is looked through first. -/
theorem IdsUnique.buyFirst (hids : list.IdsUnique) (horder : order ∈ list.toVec) :
    (list.buyOrders ++ list.sellOrders).find? (fun o => o.id = order.id) = some order := by
  have hperm : List.Perm list.toVec (list.buyOrders ++ list.sellOrders) := List.perm_append_comm
  exact Lib.Table.find?_of_nodup ((hperm.map Order.id).nodup_iff.mp hids) (hperm.mem_iff.mp horder)

theorem getById_removeById : (list.removeById id).getById id = none := by
  rw [getById, List.find?_eq_none]
  intro o ho
  rcases List.mem_append.mp ho with hsell | hbuy
  · simpa using (List.mem_filter.mp hsell).2
  · simpa using (List.mem_filter.mp hbuy).2

theorem find?_updateFirst (orders : List Order) :
    (updateFirst orders id args).find? (fun o => o.id = id) =
      (orders.find? fun o => o.id = id).map (Order.update · args) := by
  induction orders with
  | nil => rfl
  | cons o orders ih =>
      by_cases ho : o.id = id
      · have hupdated : (o.update args).id = id := ho
        rw [updateFirst, List.findIdx_cons, decide_eq_true ho, cond_true, List.modify_zero_cons, List.find?_cons,
          List.find?_cons, decide_eq_true ho, decide_eq_true hupdated]
        rfl
      · rw [updateFirst, List.findIdx_cons, decide_eq_false ho, cond_false, List.modify_succ_cons, List.find?_cons,
          List.find?_cons, decide_eq_false ho]
        exact ih

theorem getById_update (hids : list.IdsUnique) (horder : order ∈ list.toVec) :
    (list.update order.id args).getById order.id = some (order.update args) := by
  have hfound : list.getById order.id = some order := Lib.Table.find?_of_nodup hids horder
  rw [getById, toVec, List.find?_append] at hfound ⊢
  rw [update]
  by_cases hbuy : list.buyOrders.any (fun o => o.id = order.id) = true
  · rw [if_pos hbuy]
    obtain ⟨o, ho, hid⟩ := List.any_eq_true.mp hbuy
    have hsell : list.sellOrders.find? (fun o => o.id = order.id) = none := by
      rw [List.find?_eq_none]
      intro o' ho' hid'
      rw [IdsUnique, toVec, List.map_append] at hids
      refine (List.nodup_append.mp hids).2.2 _ (List.mem_map_of_mem ho') _ (List.mem_map_of_mem ho) ?_
      exact (of_decide_eq_true hid').trans (of_decide_eq_true hid).symm
    rw [hsell, Option.none_or] at hfound ⊢
    rw [find?_updateFirst, hfound, Option.map_some]
  · rw [if_neg hbuy]
    have hnone : list.buyOrders.find? (fun o => o.id = order.id) = none := by
      rw [List.find?_eq_none]
      exact fun o ho hid => hbuy (List.any_eq_true.mpr ⟨o, ho, hid⟩)
    rw [hnone, Option.or_none] at hfound ⊢
    rw [find?_updateFirst, hfound, Option.map_some]

theorem update_withQuantity (order : Order) (quantity : Nat) :
    order.update (.withQuantity .default quantity) = { order with quantity := quantity } := rfl

/-- What a close leaves of a cached order. -/
theorem getById_closeOrder (hids : list.IdsUnique) (horder : order ∈ list.toVec) (quantity : Nat) :
    (subU32 order.quantity quantity = 0 → (list.closeOrder order.id quantity).getById order.id = none) ∧
      (subU32 order.quantity quantity ≠ 0 → (list.closeOrder order.id quantity).getById order.id =
        some { order with quantity := subU32 order.quantity quantity }) := by
  rw [closeOrder, hids.buyFirst horder]
  refine ⟨fun hzero => ?_, fun hleft => ?_⟩
  · simp only [hzero, le_refl, if_true]
    exact getById_removeById
  · simp only [Nat.le_zero, hleft, if_false]
    rw [getById_update hids horder, update_withQuantity]

/-! ### An update as a map -/

/-- The orders of an id, changed. -/
def adjust (list : OrderList) (id : String) (f : Order → Order) : OrderList where
  sellOrders := list.sellOrders.map fun o => if o.id = id then f o else o
  buyOrders := list.buyOrders.map fun o => if o.id = id then f o else o

theorem map_adjust_of_absent {orders : List Order} (habsent : ∀ o ∈ orders, o.id ≠ id) (f : Order → Order) :
    orders.map (fun o => if o.id = id then f o else o) = orders := by
  conv_rhs => rw [← List.map_id orders]
  refine List.map_congr_left fun o ho => ?_
  rw [if_neg (habsent o ho), id_eq]

theorem toVec_adjust (list : OrderList) (id : String) (f : Order → Order) :
    (list.adjust id f).toVec = list.toVec.map fun o => if o.id = id then f o else o := List.map_append.symm

theorem adjust_congr {f g : Order → Order} (h : ∀ o ∈ list.toVec, o.id = id → f o = g o) :
    list.adjust id f = list.adjust id g := by
  have hmap {orders : List Order} (hsub : orders ⊆ list.toVec) :
      orders.map (fun o => if o.id = id then f o else o) = orders.map fun o => if o.id = id then g o else o := by
    refine List.map_congr_left fun o ho => ?_
    split
    next hid => exact h o (hsub ho) hid
    next => rfl
  rw [adjust, adjust, hmap (List.subset_append_left _ _), hmap (List.subset_append_right _ _)]

/-- Every order is of one side. -/
theorem new_toVec (orders : List Order) : (new orders).toVec.Perm orders := by
  have hsides : (orders.filter (fun o => o.orderType = .buy) ++
      orders.filter (fun o => !decide (o.orderType = .buy))).Perm orders := List.filter_append_perm _ _
  refine List.Perm.trans ?_ hsides
  rw [toVec, new]
  refine (List.Perm.append (List.perm_insertionSort _ _) (List.perm_insertionSort _ _)).trans ?_
  refine List.perm_append_comm.trans (.of_eq (congrArg _ (List.filter_congr fun o _ => ?_)))
  cases o.orderType with
  | sell => rfl
  | buy => rfl

theorem updateFirst_eq_map {orders : List Order} (hids : (orders.map Order.id).Nodup) :
    updateFirst orders id args = orders.map fun o => if o.id = id then o.update args else o := by
  induction orders with
  | nil => rfl
  | cons o orders ih =>
      rw [List.map_cons, List.nodup_cons] at hids
      rw [List.map_cons, updateFirst, List.findIdx_cons]
      by_cases ho : o.id = id
      · rw [decide_eq_true ho, cond_true, List.modify_zero_cons, if_pos ho, map_adjust_of_absent]
        intro o' ho' hid
        apply hids.1
        rw [ho, ← hid]
        exact List.mem_map_of_mem ho'
      · rw [decide_eq_false ho, cond_false, List.modify_succ_cons, if_neg ho]
        exact congrArg (List.cons o) (ih hids.2)

/-- With unique ids an update changes the orders of its id, wherever it looks for them first. -/
theorem update_eq_adjust (hids : list.IdsUnique) (id : String) (args : UpdateOrderParams) :
    list.update id args = list.adjust id fun o => o.update args := by
  rw [IdsUnique, toVec, List.map_append] at hids
  obtain ⟨hsell, hbuy, hdisjoint⟩ := List.nodup_append.mp hids
  rw [update, adjust]
  by_cases hany : list.buyOrders.any (fun o => o.id = id) = true
  · obtain ⟨o, ho, hid⟩ := List.any_eq_true.mp hany
    have habsent : ∀ o' ∈ list.sellOrders, o'.id ≠ id := by
      intro o' ho' hid'
      exact hdisjoint _ (List.mem_map_of_mem ho') _ (List.mem_map_of_mem ho) (hid'.trans (of_decide_eq_true hid).symm)
    rw [if_pos hany, updateFirst_eq_map hbuy, map_adjust_of_absent habsent]
  · have habsent : ∀ o ∈ list.buyOrders, o.id ≠ id := by
      intro o ho hid
      exact hany (List.any_eq_true.mpr ⟨o, ho, decide_eq_true hid⟩)
    rw [if_neg hany, updateFirst_eq_map hsell, map_adjust_of_absent habsent]

/-- A change that leaves the side and the price of every order alone does not move them. -/
theorem new_adjust {f : Order → Order} (orders : List Order) (hside : ∀ o ∈ orders, (f o).orderType = o.orderType)
    (hprice : ∀ o ∈ orders, (f o).platinum = o.platinum) :
    new (orders.map f) = ⟨(new orders).sellOrders.map f, (new orders).buyOrders.map f⟩ := by
  have hfilter (side : OrderType) : (orders.map f).filter (fun o => o.orderType = side) =
      (orders.filter fun o => o.orderType = side).map f := by
    rw [List.filter_map]
    refine congrArg (List.map f) (List.filter_congr fun o ho => ?_)
    rw [Function.comp_apply, hside o ho]
  have hkept {side : OrderType} {o : Order} (ho : o ∈ orders.filter fun o => o.orderType = side) :
      (f o).platinum = o.platinum := hprice o (List.mem_of_mem_filter ho)
  rw [new, hfilter, hfilter, new]
  congr 1
  · refine (List.map_insertionSort _ _ _ _ fun a ha b hb => ?_).symm
    rw [hkept ha, hkept hb]
  · refine (List.map_insertionSort _ _ _ _ fun a ha b hb => ?_).symm
    rw [hkept ha, hkept hb]

end OrderList

end Market

end Quantframe
