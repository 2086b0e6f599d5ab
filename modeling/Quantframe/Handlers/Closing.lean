import Quantframe.Handlers.Purchases
import Quantframe.Market.Cache

/-!
# The market order after a trade

A close asks for the whole traded quantity, and the order cache subtracts it as it is.
-/

namespace Quantframe

namespace Handlers

open Lib Prog
open Trades (SubType Error)
open Market (OrderList Order asU32 subU32)

/-- The cache subtracts more from the order than it has. -/
def Op.wraps (orders : OrderList) : Op → Bool
  | .closeOrder id quantity =>
      ((orders.buyOrders ++ orders.sellOrders).find? fun o => o.id = id).any fun o => decide (o.quantity < quantity)
  | _ => false

/-- Answers as `sv` does, and notes whether a subtraction of the cache has wrapped. -/
def Services.noting (sv : Services) (o : Op) (s : World × Bool) : Reply o × (World × Bool) :=
  ((sv.answer o s.1).1, (sv.answer o s.1).2, s.2 || o.wraps s.1.orders)

/-- What a trade of `quantity` leaves of an order, and that the handler's `i64` and the cache's `u32` hold it. -/
structure FollowsTrade (order : Order) (quantity : Int) (after : World × Bool) : Prop where
  less : quantity < order.quantity →
    after.1.orders.getById order.id = some { order with quantity := ((order.quantity : Int) - quantity).toNat }
  gone : order.quantity ≤ quantity → after.1.orders.getById order.id = none
  clamped : -(2 ^ 63) ≤ (order.quantity : Int) - quantity
  unwrapped : after.2 = false

section Handler

variable {sv : Services} {w : World} {order : Order} {quantity : Int}

/-- The world after the request for a traded order. -/
def World.requested (w : World) (sv : Services) (order : Order) (quantity : Int) : World × Bool :=
  let request := orderRequest sv.reportToWfm false order quantity
  ((sv.perform request.op w).2, request.op.wraps w.orders)

theorem eval_call (hgrants : ∀ o, sv.grants o) {o : Op} {mapErr : Failure → Error} {r : o.Result} {w' : World}
    (h : sv.perform o w = (.ok r, w')) (noted : Bool) :
    (call o mapErr).run.eval sv.noting (w, noted) = (.ok r, w', noted || o.wraps w.orders) := by
  have hanswer : sv.answer o w = (.ok r, w') := (answer_granted (hgrants o)).trans h
  simp only [call, ExceptT.run_mk, eval_bind, eval_perform, Services.noting, hanswer, eval_done]
  rfl

theorem eval_send (hgrants : ∀ o, sv.grants o) (request : OrderRequest)
    (h : (∃ id n, request.op = .closeOrder id n) ∨ (∃ id, request.op = .deleteOrder id) ∨
      ∃ id args, request.op = .updateOrder id args) :
    request.send.run.eval sv.noting (w, false) =
      (.ok request.status, (sv.perform request.op w).2, request.op.wraps w.orders) := by
  obtain ⟨o, status, stage, message⟩ := request
  rcases h with ⟨id, n, rfl⟩ | ⟨id, rfl⟩ | ⟨id, args, rfl⟩
  · exact eval_bindE_ok _ (eval_call hgrants rfl false)
  · exact eval_bindE_ok _ (eval_call hgrants rfl false)
  · exact eval_bindE_ok _ (eval_call hgrants rfl false)

theorem handleWfmItem_eval (hgrants : ∀ o, sv.grants o) {wfmId : String} {subType : Option SubType}
    {orderType : OrderType} {operations : OperationSet}
    (hfound : w.orders.findOrder wfmId (.fromEntity subType) orderType = some order)
    (hkept : OperationSet.has operations "ShouldDelete" = false)
    (hasked : skipsBuy ⟨sv.reportToWfm, w.orders⟩ orderType operations = false) :
    (handleWfmItem wfmId subType quantity orderType operations).run.eval sv.noting (w, false) =
      (.ok (orderRequest sv.reportToWfm false order quantity).status, w.requested sv order quantity) := by
  have happ : (call .appState fromPoison).run.eval sv.noting (w, false) = (.ok ⟨sv.reportToWfm, w.orders⟩, w, false) :=
    eval_call hgrants rfl false
  rw [handleWfmItem, eval_bindE_ok _ happ]
  simp only [hasked, hfound, hkept, Bool.false_eq_true, if_false]
  exact eval_send hgrants _ (orderRequest_cases _ _ _ _)

/-- A close follows the trade exactly where the `u32` that it is given is no more than the order has. -/
theorem closed_follows_iff (hids : w.orders.IdsUnique) (horder : order ∈ w.orders.toVec)
    (hcached : order.quantity < 2 ^ 32) (htraded : 1 ≤ quantity ∧ quantity < 2 ^ 63)
    (hreports : sv.reportToWfm = true) :
    FollowsTrade order quantity (w.requested sv order quantity) ↔
      quantity ≤ order.quantity ∨ quantity % 2 ^ 32 = order.quantity := by
  have hrequested : w.requested sv order quantity =
      ({ w with orders := w.orders.closeOrder order.id (asU32 quantity) },
        decide (order.quantity < asU32 quantity)) := by
    have hrequest : orderRequest sv.reportToWfm false order quantity =
        ⟨.closeOrder order.id (asU32 quantity), .closed, "Close", "Failed to close WFM order"⟩ := by
      rw [orderRequest, hreports]
      rfl
    rw [World.requested, hrequest]
    refine congrArg (Prod.mk _) ?_
    rw [Op.wraps, hids.buyFirst horder, Option.any_some]
  have hasked : (asU32 quantity : Int) = quantity % 2 ^ 32 := by
    rw [asU32]
    omega
  obtain ⟨hgone, hleft⟩ := OrderList.getById_closeOrder hids horder (asU32 quantity)
  rw [hrequested]
  generalize asU32 quantity = asked at *
  have hfits : asked < 2 ^ 32 := by omega
  rw [Market.subU32_eq_zero hcached hfits] at hgone
  constructor
  · intro hfollows
    by_contra hbeyond
    have hmore : (order.quantity : Int) ≤ quantity ∧ asked ≠ order.quantity := by omega
    have hzero := mt (Market.subU32_eq_zero hcached hfits).mp hmore.2
    cases (hfollows.gone hmore.1).symm.trans (hleft hzero)
  · intro hcond
    have hle : asked ≤ order.quantity := by omega
    refine ⟨fun hless => ?_, fun hmore => hgone (by omega), by omega, decide_eq_false (by omega)⟩
    have hsub : subU32 order.quantity asked = ((order.quantity : Int) - quantity).toNat := by
      rw [Market.subU32_of_le hle hcached]
      omega
    rw [hsub] at hleft
    exact hleft (by omega)

/-- Without reports the order is updated to what is left of it, or deleted. -/
theorem updated_follows (hids : w.orders.IdsUnique) (horder : order ∈ w.orders.toVec)
    (hcached : order.quantity < 2 ^ 32) (htraded : 1 ≤ quantity ∧ quantity < 2 ^ 63)
    (hsilent : sv.reportToWfm = false) :
    FollowsTrade order quantity (w.requested sv order quantity) := by
  have hfits : InI64 ((order.quantity : Int) - quantity) := by
    unfold InI64 i64Min i64Max
    omega
  have hclamped : asU32 (max (wrapI64 ((order.quantity : Int) - quantity)) 0) =
      ((order.quantity : Int) - quantity).toNat := by
    rw [wrapI64_of_inI64 hfits, asU32]
    omega
  by_cases hall : ((order.quantity : Int) - quantity).toNat = 0
  · have hrequest : orderRequest sv.reportToWfm false order quantity =
        ⟨.deleteOrder order.id, .deleted, "Delete", "Failed to delete WFM order"⟩ := by
      rw [orderRequest, hsilent, hclamped, hall]
      rfl
    rw [World.requested, hrequest]
    exact ⟨fun hless => by omega, fun _ => OrderList.getById_removeById, by omega, rfl⟩
  · have hrequest : orderRequest sv.reportToWfm false order quantity =
        ⟨.updateOrder order.id (.withQuantity .default ((order.quantity : Int) - quantity).toNat), .updated, "Update",
          "Failed to update WFM order"⟩ := by
      rw [orderRequest, hsilent, hclamped]
      simp only [Bool.false_and, Bool.false_or, Bool.false_eq_true, if_false, hall, decide_false]
    rw [World.requested, hrequest]
    refine ⟨fun _ => ?_, fun hmore => by omega, by omega, rfl⟩
    exact (OrderList.getById_update hids horder).trans (congrArg some (OrderList.update_withQuantity _ _))

/-- The market order follows every trade that is no larger than it, and every trade while nothing is reported. -/
theorem order_follows_trade_iff (sv : Services) (w : World) (wfmId : String) (subType : Option SubType)
    (quantity : Int) (orderType : OrderType) (operations : OperationSet) (order : Order)
    (hids : w.orders.IdsUnique)
    (hfound : w.orders.findOrder wfmId (.fromEntity subType) orderType = some order)
    (hcached : order.quantity < 2 ^ 32) (htraded : 1 ≤ quantity ∧ quantity < 2 ^ 63)
    (hkept : OperationSet.has operations "ShouldDelete" = false)
    (hforced : orderType = .buy → sv.reportToWfm = true ∨ OperationSet.has operations "ForceOrderSync" = true)
    (hgrants : ∀ o, sv.grants o) :
    ∃ status after,
      (handleWfmItem wfmId subType quantity orderType operations).run.eval sv.noting (w, false) =
        (.ok status, after) ∧
      (FollowsTrade order quantity after ↔
        sv.reportToWfm = false ∨ quantity ≤ order.quantity ∨ quantity % 2 ^ 32 = order.quantity) := by
  have hasked : skipsBuy ⟨sv.reportToWfm, w.orders⟩ orderType operations = false := by
    rw [skipsBuy]
    cases orderType with
    | sell => rfl
    | buy =>
        rcases hforced rfl with hreports | hforce
        · simp only [hreports, Bool.not_true, Bool.and_false, Bool.false_and]
        · simp only [hforce, Bool.not_true, Bool.and_false]
  refine ⟨_, _, handleWfmItem_eval hgrants hfound hkept hasked, ?_⟩
  have horder := OrderList.mem_toVec_of_findOrder hfound
  cases hreports : sv.reportToWfm with
  | false => exact iff_of_true (updated_follows hids horder hcached htraded hreports) (.inl rfl)
  | true =>
      rw [closed_follows_iff hids horder hcached htraded hreports]
      simp only [Bool.true_eq_false, false_or]

end Handler

/-- A sale of `quantity` formas at 10. -/
def formaSale (quantity : Nat) : Order :=
  ⟨"forma-sale", .sell, 10, quantity, none, .default, true, "id-forma", .default⟩

def saleWorld (quantity : Nat) : World := { wishWorld 3 with orders := ⟨[formaSale quantity], []⟩ }

/-- After a trade of `quantity` formas with `listed` of them on the market. -/
def afterTrade (listed : Nat) (quantity : Int) : Except Stop WfmStatus × (World × Bool) :=
  (handleWfmItem "id-forma" none quantity .sell []).run.eval openServices.noting (saleWorld listed, false)

theorem order_follows_trade_iff_forma : FollowsTrade (formaSale 3) 2 (afterTrade 3 2).2 := by
  obtain ⟨status, after, hrun, hfollows⟩ := order_follows_trade_iff openServices (saleWorld 3) "id-forma" none 2 .sell
    [] (formaSale 3) (List.nodup_singleton _) (by decide) (by decide) (by decide) rfl nofun fun _ => rfl
  rw [afterTrade, hrun]
  exact hfollows.mpr (.inr (.inl (by decide)))

/-- Two are traded of an order for one: the cached order is not gone but asks for 4294967295. -/
theorem order_beyond_trade :
    ¬ FollowsTrade (formaSale 1) 2 (afterTrade 1 2).2 ∧
      (afterTrade 1 2).2.1.orders.getById "forma-sale" = some (formaSale 4294967295) ∧ (afterTrade 1 2).2.2 = true := by
  have hcached : (afterTrade 1 2).2.1.orders.getById "forma-sale" = some (formaSale 4294967295) := by decide +kernel
  refine ⟨fun hfollows => ?_, hcached, by decide +kernel⟩
  cases (hfollows.gone (by decide)).symm.trans hcached

end Handlers

end Quantframe
