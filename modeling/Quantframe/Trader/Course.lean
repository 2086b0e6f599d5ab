import Quantframe.Trader.Items

/-!
# Cycles that stay on course

What every question to the outside keeps, the writes of a cycle keep, and they turn to no entry. Where they
fail, one of the writes has failed.
-/

namespace Quantframe.Trader

open Lib Lib.Effect Market
open Handlers (OperationSet)
open Trades (Error)

/-- The entry that a cycle turns to with a step. -/
def Step.turned : Step → Option ItemEntry
  | .turn entry => some entry
  | .lookup .. | .blocked .. | .write _ => none

def turns (trace : List Step) : List ItemEntry := trace.filterMap Step.turned

/-- A write has failed. -/
def Spoiled (trace : List Step) : Prop := ∃ write, Step.write write ∈ trace ∧ write.succeeded = false

section Course

variable {E α β : Type}

/-- The questions of the writes keep `P`. -/
structure OrdersOutside.Keeping (out : OrdersOutside E) (P : E → Prop) : Prop where
  create : ∀ params e, P e → P (out.create params e).2
  update : ∀ id params e, P e → P (out.update id params e).2
  delete : ∀ id e, P e → P (out.delete id e).2
  myOrders : ∀ e, P e → P (out.myOrders e).2
  uuid : ∀ e, P e → P (out.uuid e).2

structure OnCourse (P : E → Prop) (entries : List ItemEntry) (spoiled : Prop) (w : World E) : Prop where
  ext : P w.ext
  turns : turns w.trace = entries
  spoiled : spoiled → Spoiled w.trace

variable {P : E → Prop} {entries : List ItemEntry} {s s' : Prop} {w : World E}

theorem OnCourse.weaken (h : OnCourse P entries s w) (hs : s' → s) : OnCourse P entries s' w :=
  ⟨h.ext, h.turns, fun hs' => h.spoiled (hs hs')⟩

theorem OnCourse.step (h : OnCourse P entries s w) {step : Step} (hstep : step.turned = none) (orders : TradeOrders) :
    OnCourse P entries s { w with orders := orders, trace := w.trace ++ [step] } where
  ext := h.ext
  turns := by rw [Trader.turns, List.filterMap_append, List.filterMap_cons_none hstep, List.filterMap_nil,
    List.append_nil, ← Trader.turns, h.turns]
  spoiled hs := by
    obtain ⟨write, hwrite, hfailed⟩ := h.spoiled hs
    exact ⟨write, List.mem_append_left _ hwrite, hfailed⟩

theorem OnCourse.failed (h : OnCourse P entries s w) {write : Write} (hfailed : write.succeeded = false) :
    OnCourse P entries True { w with orders := write.orders, trace := w.trace ++ [.write write] } :=
  ⟨h.ext, (h.step rfl write.orders).turns, fun _ => ⟨write, List.mem_append_right _ List.mem_cons_self, hfailed⟩⟩

def IsError (r : Except Error α) : Prop := ∃ e, r = .error e

theorem not_isError {a : α} : ¬ IsError (.ok a : Except Error α) := by
  rintro ⟨e, he⟩
  cases he

/-- The program stays on course, and fails only after a write that has failed. -/
def Steady (P : E → Prop) (m : TraderM E α) : Prop :=
  ∀ entries s w, OnCourse P entries s w → m.wp (fun r t => OnCourse P entries (s ∨ IsError r) t) w

namespace Steady

variable {m : TraderM E α} {f : α → TraderM E β}

theorem pure (a : α) : Steady P (pure a : TraderM E α) :=
  fun _ _ _ h => h.weaken fun hs => hs.elim id fun he => absurd he not_isError

theorem bind (hm : Steady P m) (hf : ∀ a, Steady P (f a)) : Steady P (m >>= f) := by
  intro entries s w h
  rw [wp_bind]
  refine wp_mono (hm entries s w h) fun r t ht => ?_
  cases r with
  | ok a => exact hf a entries s t (ht.weaken .inl)
  | error e => exact ht.weaken fun _ => .inr ⟨e, rfl⟩

theorem ite {c : Prop} [Decidable c] {m' : TraderM E α} (h : c → Steady P m) (h' : ¬ c → Steady P m') :
    Steady P (if c then m else m') := by
  by_cases hc : c
  · rw [if_pos hc]
    exact h hc
  · rw [if_neg hc]
    exact h' hc

theorem read (g : World E → α) : Steady P (Effect.read g : TraderM E α) :=
  fun _ _ _ h => h.weaken fun hs => hs.elim id fun he => absurd he not_isError

theorem ask {q : E → α × E} (hq : ∀ e, P e → P (q e).2) : Steady P (Trader.ask q) :=
  fun _ _ w h => ⟨hq w.ext h.ext, h.turns, fun hs => h.spoiled (hs.elim id fun he => absurd he not_isError)⟩

/-- A step of the trace other than a turn. -/
theorem tell {step : World E → Step} (hstep : ∀ w, (step w).turned = none) :
    Steady P (change fun w : World E => { w with trace := w.trace ++ [step w] }) :=
  fun _ _ w h => (h.step (hstep w) w.orders).weaken fun hs => hs.elim id fun he => absurd he not_isError

theorem record (action : Action) (sent succeeded : Bool) (orders : TradeOrders) :
    Steady P (record action sent succeeded orders : TraderM E Unit) :=
  fun _ _ _ h => (h.step rfl orders).weaken fun hs => hs.elim id fun he => absurd he not_isError

theorem spent (hm : Steady P m) (entries : List ItemEntry) : Keeps (OnCourse P entries True) m :=
  fun w h => wp_mono (hm entries True w h) fun _ _ ht => ht.weaken fun _ => .inl trivial

/-- After a write that failed a program may fail too. -/
theorem record_failed (action : Action) (sent : Bool) (orders : TradeOrders)
    (hm : ∀ entries, Keeps (OnCourse P entries True) m) :
    Steady P (Trader.record action sent false orders >>= fun _ => m) := by
  intro entries s w h
  rw [wp_bind, Trader.record, wp_change, next_ok]
  have hfailed : OnCourse P entries True _ :=
    h.failed (rfl : (⟨action, sent, w.processing, false, orders⟩ : Write).succeeded = false)
  exact wp_mono (hm entries _ hfailed) fun _ _ ht => ht.weaken fun _ => trivial

theorem keeps (hm : Steady P m) : Keeps (fun w => P w.ext) m :=
  fun w h => wp_mono (hm (turns w.trace) False w ⟨h, rfl, False.elim⟩) fun _ _ ht => ht.ext

/-- The outcome of a program as a value: a failed write in it is not one of the program's own. -/
theorem attempt (hm : Steady P m) : Steady P m.attempt := by
  intro entries s w h
  rw [wp_attempt]
  refine wp_mono (hm entries s w h) fun r t ht => ?_
  exact ht.weaken fun hs => .inl (hs.elim id fun he => absurd he not_isError)

end Steady

/-- A question whose failure ends the cycle. -/
theorem demand_ext {q : E → Except Error α × E} {Q : Except Error α → E → Prop} (h : Q (q w.ext).1 (q w.ext).2) :
    (demand q).wp (fun r t => Q r t.ext) w := by
  rw [demand, wp_bind, ask, wp_act, next_ok]
  split
  next a ha =>
    rw [ha] at h
    exact h
  next e he =>
    rw [he] at h
    exact h

/-! ### The writes -/

variable {out : OrdersOutside E}

theorem refresh_steady (hout : out.Keeping P) : Steady P (refresh out) := by
  refine (Steady.read _).bind fun orders => .ite (fun _ => ?_) fun _ => .pure ()
  refine (Steady.ask hout.myOrders).bind fun answer => ?_
  cases answer with
  | ok mine => exact .record _ _ _ _
  | error e => exact .pure ()

theorem liveClient_steady (action : Action) : Steady P (liveClient action : TraderM E OrderRoute) := by
  refine (Steady.read _).bind fun orders => ?_
  split
  · exact .pure _
  · exact Steady.record_failed action false _ fun _ => .fail _

theorem finishLive_steady (hout : out.Keeping P) (action : Action) (name verb : String) (sent : Bool)
    (result : Except ApiError α) (orders : TradeOrders) :
    Steady P (finishLive out action name verb sent result orders) := by
  cases result with
  | ok value => exact (Steady.record _ _ _ _).bind fun _ => .pure value
  | error e =>
      refine Steady.record_failed action sent _ fun entries => .ite (fun _ => ?_) fun _ => .bind (.pure ()) fun _ => .fail _
      exact ((refresh_steady hout).spent entries).bind fun _ => .fail _

theorem create_steady (hout : out.Keeping P) (params : CreateOrderParams) (route : Route) :
    Steady P (create out params route) := by
  cases route with
  | dryRun forcedBy =>
      refine (Steady.ask hout.uuid).bind fun id => (Steady.read _).bind fun orders => ?_
      exact (Steady.record _ _ _ _).bind fun _ => .pure _
  | live =>
      refine (liveClient_steady _).bind fun client => (Steady.read _).bind fun orders => ?_
      refine .ite (fun _ => ?_) fun _ => finishLive_steady hout _ _ _ _ _ _
      refine (Steady.ask (hout.create params)).bind fun answer => ?_
      cases answer with
      | ok answered => exact finishLive_steady hout _ _ _ _ _ _
      | error e => exact finishLive_steady hout _ _ _ _ _ _

theorem update_steady (hout : out.Keeping P) (id : String) (params : UpdateOrderParams) :
    Steady P (update out id params) := by
  refine (Steady.read _).bind fun orders => .ite (fun _ => ?_) fun _ => ?_
  · dsimp only
    cases (orders.book.update id params).getById id with
    | some order => exact (Steady.record _ _ _ _).bind fun _ => .pure order
    | none => exact Steady.record_failed _ _ _ fun _ => .fail _
  · refine (liveClient_steady _).bind fun client => (Steady.read _).bind fun orders => ?_
    refine (Steady.ask (hout.update id params)).bind fun answer => ?_
    cases answer with
    | ok answered => exact finishLive_steady hout _ _ _ _ _ _
    | error e => exact finishLive_steady hout _ _ _ _ _ _

theorem updateLocal_steady (id : String) (params : UpdateOrderParams) :
    Steady P (updateLocal id params : TraderM E Unit) :=
  (Steady.read _).bind fun _ => .ite (fun _ => .record _ _ _ _) fun _ => .record _ _ _ _

theorem delete_steady (hout : out.Keeping P) (id : String) : Steady P (delete out id) := by
  refine (Steady.read _).bind fun orders => .ite (fun _ => ?_) fun _ => ?_
  · exact (Steady.record _ _ _ _).bind fun _ => .pure _
  · refine (liveClient_steady _).bind fun client => (Steady.read _).bind fun orders => ?_
    refine (Steady.ask (hout.delete id)).bind fun answer => ?_
    cases answer with
    | ok deleted => exact finishLive_steady hout _ _ _ _ _ _
    | error e => exact finishLive_steady hout _ _ _ _ _ _

/-! ### The helpers -/

theorem getOrderInfo_steady (entry : ItemEntry) (orderType : OrderType) (route : Route) :
    Steady P (getOrderInfo entry orderType route : TraderM E OrderInfo) :=
  (Steady.read _).bind fun _ => (Steady.tell fun _ => rfl).bind fun _ => .pure _

theorem freeSlot_steady (hout : out.Keeping P) (entry : ItemEntry) (route : Route) (orderType : OrderType)
    (slots : Slots) : Steady P (freeSlot out entry route orderType slots) := by
  refine (Steady.read _).bind fun orders => (Steady.tell fun _ => rfl).bind fun _ => ?_
  cases sellSlotVictim orders route orderType slots.wishList with
  | none => exact .pure false
  | some victim =>
      refine (delete_steady hout victim.id).attempt.bind fun freed => ?_
      cases freed with
      | ok _ => exact .pure true
      | error _ => exact .pure false

theorem writeOrder_steady (hout : out.Keeping P) (entry : ItemEntry) (route : Route) (orderType : OrderType)
    (postPrice : Nat) (perTrade : Option Int) (properties : Properties) (operations : OperationSet)
    (canCreateOrder : Bool) :
    Steady P (writeOrder out entry route orderType postPrice perTrade properties operations canCreateOrder) := by
  refine .ite (fun _ => (create_steady hout _ _).bind fun _ => .pure ()) fun _ => .ite (fun _ => ?_) fun _ => ?_
  · refine (Steady.read _).bind fun orders => .ite (fun _ => updateLocal_steady _ _) fun _ => ?_
    exact (update_steady hout _ _).bind fun _ => .pure ()
  · exact .ite (fun _ => (delete_steady hout _).bind fun _ => .pure ()) fun _ => .pure ()

theorem progressOrder_steady (hout : out.Keeping P) (entry : ItemEntry) (route : Route) (orderType : OrderType)
    (postPrice : Nat) (perTrade : Option Int) (properties : Properties) (operations : OperationSet)
    (slots : Slots) :
    Steady P (progressOrder out entry route orderType postPrice perTrade properties operations slots) := by
  refine (Steady.read _).bind fun orders => ?_
  have hwrite : ∀ canCreateOrder : Bool, Steady P
      (writeOrder out entry route orderType postPrice perTrade properties operations canCreateOrder) :=
    fun _ => writeOrder_steady hout _ _ _ _ _ _ _ _
  refine .ite (fun _ => ?_) fun _ => (Steady.pure false).bind fun _ => hwrite _
  exact (freeSlot_steady hout _ _ _ _).bind fun _ => hwrite _

theorem deleteOrder_steady (hout : out.Keeping P) (entry : ItemEntry) (orderType : OrderType) (route : Route)
    (reason : String) : Steady P (deleteOrder out entry orderType route reason) :=
  (getOrderInfo_steady _ _ _).bind fun _ =>
    .ite (fun _ => .pure ()) fun _ => progressOrder_steady hout _ _ _ _ _ _ _ _

theorem Steady.each {l : List α} {f : α → TraderM E Unit} (hf : ∀ a, Steady P (f a)) : Steady P (each l f) := by
  induction l with
  | nil => exact .pure ()
  | cons a l ih => exact (hf a).bind fun _ => ih

end Course

/-! ### After the entries -/

section Sweeps

variable {E F : Type} {P : E → Prop} {num : PriceFloats F} {out : Outside E} {ctx : TradeContext F}

theorem tryDelete_steady (hout : out.toOrdersOutside.Keeping P) (id : String) : Steady P (tryDelete out id) :=
  (delete_steady hout id).attempt.bind fun _ => .pure ()

theorem holdCap_steady (hout : out.toOrdersOutside.Keeping P) (existing : List String) :
    Steady P (holdCap num out ctx existing) := by
  refine (Steady.read _).bind fun orders => .ite (fun _ => ?_) fun _ => .pure ()
  exact .each fun order => .ite (fun _ => .pure ()) fun _ => tryDelete_steady hout _

theorem sweepOrphans_steady (hout : out.toOrdersOutside.Keeping P) (hnow : ∀ e, P e → P (out.now e).2)
    (entries : List ItemEntry) : Steady P (sweepOrphans out ctx entries) := by
  refine (Steady.ask hnow).bind fun now => (Steady.read _).bind fun orders => (Steady.read _).bind fun seen => ?_
  refine Steady.bind (fun _ _ _ h => ?_) fun _ => .each fun id => tryDelete_steady hout id
  exact ⟨h.ext, h.turns, fun hs => h.spoiled (hs.elim id fun he => absurd he not_isError)⟩

end Sweeps

end Quantframe.Trader
