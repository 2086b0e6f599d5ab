import Mathlib.Algebra.Group.Int.Defs
import Quantframe.Trader.Cycles
import Quantframe.Trader.Writes

/-!
# What an entry posts

The writes of one workflow, at the price and with the operations it has arrived at.
-/

namespace Quantframe.Trader

open Lib Lib.Effect Market
open Handlers (OperationSet)
open Trades (Error)

/-- The price that an action sets. -/
def Action.price : Action → Option Nat
  | .create params _ => some params.platinum
  | .update _ params | .updateLocal _ params => params.platinum
  | .delete _ | .refresh => none

def Step.price : Step → Option Nat
  | .write w => w.action.price
  | .lookup .. | .turn _ | .blocked .. => none

/-- The prices that are set in a trace. -/
def posted (trace : List Step) : List Nat := trace.filterMap Step.price

section Trail

variable {E α : Type} {P : Write → Prop} {start w t : World E} {out : OrdersOutside E} {action : Action}

/-- The writes since a world all have a property. -/
def Trail (P : Write → Prop) (start w : World E) : Prop :=
  ∃ steps, w.trace = start.trace ++ steps ∧ ∀ write, Step.write write ∈ steps → P write

theorem Trail.refl (w : World E) : Trail P w w := 
  ⟨[], (List.append_nil _).symm, fun _ hwrite => absurd hwrite List.not_mem_nil⟩

theorem Trail.append (h : Trail P start w) {steps : List Step} (htrace : t.trace = w.trace ++ steps)
    (hsteps : ∀ write, Step.write write ∈ steps → P write) : Trail P start t := by
  obtain ⟨earlier, hearlier, hold⟩ := h
  refine ⟨earlier ++ steps, ?_, fun write hwrite => ?_⟩
  · rw [htrace, hearlier, List.append_assoc]
  · exact (List.mem_append.mp hwrite).elim (hold write) (hsteps write)

theorem Trail.wrote (h : Trail P start w) (hwrote : Wrote out action w t)
    (haction : ∀ write, write.action = action → P write) (hrefresh : ∀ write, write.action = .refresh → P write) :
    Trail P start t := by
  obtain ⟨sent, succeeded, after, rest, -, htrace, hrest, -⟩ := hwrote.wrote
  refine h.append htrace fun write hwrite => ?_
  rcases List.mem_cons.mp hwrite with heq | hwrite
  · cases heq
    exact haction _ rfl
  · exact hrefresh write (hrest _ hwrite)

/-- From an empty trace on, a trail tells of every price that is set. -/
theorem Trail.posted {Good : Nat → Prop} (h : Trail (fun write => ∀ p, write.action.price = some p → Good p) start w)
    (hstart : start.trace = []) : ∀ p ∈ posted w.trace, Good p := by
  obtain ⟨steps, htrace, hsteps⟩ := h
  rw [hstart, List.nil_append] at htrace
  intro p hp
  rw [Trader.posted, htrace] at hp
  obtain ⟨step, hstep, hprice⟩ := List.mem_filterMap.mp hp
  cases step with
  | write write => exact hsteps write hstep p hprice
  | lookup => cases hprice
  | turn => cases hprice
  | blocked => cases hprice

theorem Quiet.trail {m : TraderM E α} (hm : Quiet m) : Keeps (Trail P start) m := fun w h =>
  hm (fun desk => ∃ steps, (desk none).trace = start.trace ++ steps ∧ ∀ write, Step.write write ∈ steps → P write) w h

/-- What the write of an entry may be, for the properties that hold of each. -/
structure Permits (P : Write → Prop) (entry : ItemEntry) (route : Route) (orderType : OrderType) (postPrice : Nat)
    (perTrade : Option Int) (properties : Properties) (operations : OperationSet) : Prop where
  create : OperationSet.has operations "Create" = true → OperationSet.has operations "Delete" = false →
    ∀ write, write.action = .create (createParams entry orderType postPrice perTrade properties) route → P write
  update : OperationSet.has operations "Delete" = false → ∀ write,
    write.action = .update (properties.id.getD "") (updateParams entry orderType postPrice perTrade properties) ∨
      write.action =
        .updateLocal (properties.id.getD "") (updateParams entry orderType postPrice perTrade properties) → P write
  delete : ∀ write id, write.action = .delete id → orderType = .sell ∨ OperationSet.has operations "Delete" = true →
    P write
  refresh : ∀ write, write.action = .refresh → P write

variable {entry : ItemEntry} {route : Route} {orderType : OrderType} {postPrice : Nat} {perTrade : Option Int}
  {properties : Properties} {operations : OperationSet}

theorem writeOrder_trail (h : Permits P entry route orderType postPrice perTrade properties operations)
    (canCreateOrder : Bool) :
    Keeps (Trail P start) (writeOrder out entry route orderType postPrice perTrade properties operations
      canCreateOrder) := by
  intro w hw
  rw [writeOrder, wp_ite]
  refine ⟨fun hcreate => ?_, fun _ => ?_⟩
  · simp only [Bool.and_eq_true, Bool.not_eq_true'] at hcreate
    obtain ⟨⟨hcreate, hdelete⟩, -⟩ := hcreate
    exact wp_seq (wp_mono (create_wrote _ _ _ w) fun _ _ hwrote => hw.wrote hwrote (h.create hcreate hdelete) h.refresh)
      (fun _ _ ht => ht) fun _ _ ht => ht
  · rw [wp_ite]
    refine ⟨fun hupdate => ?_, fun _ => ?_⟩
    · simp only [Bool.and_eq_true, Bool.not_eq_true'] at hupdate
      rw [wp_bind, wp_read, next_ok, wp_ite]
      refine ⟨fun _ => ?_, fun _ => ?_⟩
      · refine wp_mono (updateLocal_wrote out _ _ w) fun _ _ hwrote => hw.wrote hwrote (fun write hwrite => ?_) h.refresh
        exact h.update hupdate.2 write (.inr hwrite)
      · refine wp_seq (wp_mono (update_wrote _ _ _ w) fun _ _ hwrote => hw.wrote hwrote (fun write hwrite => ?_) h.refresh)
          (fun _ _ ht => ht) fun _ _ ht => ht
        exact h.update hupdate.2 write (.inl hwrite)
    · rw [wp_ite]
      refine ⟨fun hdelete => ?_, fun _ => hw⟩
      simp only [Bool.and_eq_true] at hdelete
      refine wp_seq (wp_mono (delete_wrote _ _ w) fun _ _ hwrote => hw.wrote hwrote (fun write hwrite => ?_) h.refresh)
        (fun _ _ ht => ht) fun _ _ ht => ht
      exact h.delete write _ hwrite (.inr hdelete.2)

theorem freeSlot_trail (hdelete : ∀ write id, write.action = .delete id → orderType = .sell → P write)
    (hrefresh : ∀ write, write.action = .refresh → P write) (slots : Slots) :
    Keeps (Trail P start) (freeSlot out entry route orderType slots) := by
  intro w hw
  rw [freeSlot, wp_bind, wp_read, next_ok]
  dsimp only
  rw [wp_bind, wp_change, next_ok]
  have hnoted := Trail.append hw (t := { w with trace := w.trace ++ [.blocked entry orderType route slots.wishList
    (sellSlotVictim w.orders route orderType slots.wishList)] }) rfl fun write hwrite => by
      cases List.mem_singleton.mp hwrite
  cases hvictim : sellSlotVictim w.orders route orderType slots.wishList with
  | none =>
      rw [hvictim] at hnoted
      exact hnoted
  | some victim =>
      rw [hvictim] at hnoted
      have hsell : orderType = .sell := by
        rw [sellSlotVictim] at hvictim
        split at hvictim
        next hsale => exact hsale.2
        next => cases hvictim
      show wp (attempt (delete out victim.id) >>= _) _ _
      rw [wp_bind, wp_attempt]
      refine wp_mono (delete_wrote out victim.id _) fun r t hwrote => ?_
      have hdeleted := hnoted.wrote hwrote (fun write hwrite => hdelete write _ hwrite hsell) hrefresh
      cases r with
      | ok => exact hdeleted
      | error => exact hdeleted

theorem progressOrder_trail (h : Permits P entry route orderType postPrice perTrade properties operations)
    (slots : Slots) :
    Keeps (Trail P start) (progressOrder out entry route orderType postPrice perTrade properties operations slots) := by
  refine (Keeps.read _).bind fun orders => ?_
  have hwrite (can : Bool) : Keeps (Trail P start)
      (writeOrder out entry route orderType postPrice perTrade properties operations can) := writeOrder_trail h can
  refine .ite (fun _ => ?_) fun _ => hwrite _
  exact (freeSlot_trail (fun write id hdelete hsell => h.delete write id hdelete (.inl hsell)) h.refresh slots).bind
    fun freed => hwrite _

/-- A price that is set only without a delete. -/
theorem permits_price {Good : Nat → Prop} (h : OperationSet.has operations "Delete" = false → Good postPrice) :
    Permits (fun write => ∀ p, write.action.price = some p → Good p) entry route orderType postPrice perTrade properties
      operations where
  create _ hdelete write hwrite p hp := by
    rw [hwrite] at hp
    cases hp
    exact h hdelete
  update hdelete write hwrite p hp := by
    have hprice : write.action.price = some postPrice := by
      rcases hwrite with hwrite | hwrite
      · rw [hwrite]
        rfl
      · rw [hwrite]
        rfl
    cases hprice.symm.trans hp
    exact h hdelete
  delete write id hwrite _ p hp := by
    rw [hwrite] at hp
    cases hp
  refresh write hwrite p hp := by
    rw [hwrite] at hp
    cases hp

end Trail

/-! ### Samples -/

/-- A willing market and a stock of one row. -/
def Outside.holding (row : StockItem) : Outside Nat :=
  { Outside.willing [] .spread with stockItem := fun _ n => (.ok (some row), n) }

def Outside.wishing (item : WishListItem) : Outside Nat :=
  { Outside.willing [] .spread with wishListItem := fun _ n => (.ok (some item), n) }

/-- A book with orders at these prices. -/
def LiveOrders.priced (sells buys : List Nat) : LiveOrders where
  sellOrders := sells.map fun p => ⟨simulatedOrder "s" ⟨"item", .sell, p, 1, true, none, none, none⟩, "seller", .inGame⟩
  buyOrders := buys.map fun p => ⟨simulatedOrder "b" ⟨"item", .buy, p, 1, true, none, none, none⟩, "buyer", .inGame⟩

/-- A client with these orders cached, before it has done anything. -/
def World.holding (orders : List Order) : World Nat := ⟨.new (some ⟨.new orders, 100⟩) false, [], 0, none, [], []⟩

end Quantframe.Trader
