import Mathlib.Logic.Relation
import Quantframe.Trader.Items

/-!
# The moves of a cycle

What a cycle may do to the orders: turn to an entry, look for its order, write, and sweep. An entry creates
only where its look found nothing, and updates only what its look found.
-/

namespace Quantframe.Trader

open Lib Lib.Effect Market
open Relation (ReflTransGen)
open Handlers (OperationSet)
open Trades (Error)

/-- What an entry's look found, while its writes may rest on it. -/
structure Look where
  wfmId : String
  subType : WFSubType
  orderType : OrderType
  route : Route
  found : Option Order

structure Desk where
  orders : TradeOrders
  processing : Option Bool
  looked : Option Look
  trace : List Step
  seen : List (String × Int)
  sweeps : List Sweep

/-- The writes that go to the market. -/
def Action.goesLive (o : TradeOrders) : Action → Prop
  | .create _ route => route = .live
  | .update id _ | .delete id => o.inBook id = false
  | .updateLocal _ _ | .refresh => False

/-- A write on some orders: whether it is sent, whether it succeeds, and the orders after it. -/
inductive Does {E : Type} (out : OrdersOutside E) (o : TradeOrders) : Action → Bool → Bool → TradeOrders → Prop
  | simulatedCreate (params : CreateOrderParams) (forcedBy : ForcedBy) (id : String) :
      Does out o (.create params (.dryRun forcedBy)) false true
        { o with book := o.book.add (simulatedOrder id params) }
  | liveCreate (params : CreateOrderParams) {e e' : E} {answered : Order}
      (hanswer : out.create params e = (.ok answered, e')) :
      Does out o (.create params .live) true true
        { o.mapLive (fun list => list.add { answered with properties := params.properties.getD .default }) with
          failures := 0 }
  | bookUpdate {id : String} (params : UpdateOrderParams) (succeeded : Bool) (hbook : o.inBook id = true) :
      Does out o (.update id params) false succeeded { o with book := o.book.update id params }
  | liveUpdate {id : String} (params : UpdateOrderParams) (hbook : o.inBook id = false) :
      Does out o (.update id params) true true
        { o.mapLive (fun list => list.update id params) with failures := 0 }
  | bookLocal {id : String} (params : UpdateOrderParams) (hbook : o.inBook id = true) :
      Does out o (.updateLocal id params) false true { o with book := o.book.update id params }
  | liveLocal {id : String} (params : UpdateOrderParams) (hbook : o.inBook id = false) :
      Does out o (.updateLocal id params) false true (o.mapLive fun list => list.update id params)
  | bookDelete {id : String} (hbook : o.inBook id = true) :
      Does out o (.delete id) false true { o with book := o.book.removeById id }
  | liveDelete {id : String} {e e' : E} {deleted : Order} (hbook : o.inBook id = false)
      (hanswer : out.delete id e = (.ok deleted, e')) :
      Does out o (.delete id) true true
        { o.mapLive (fun list => list.removeById deleted.id) with failures := 0 }
  | failed (action : Action) (sent : Bool) (hsent : sent = true → action.goesLive o) :
      Does out o action sent false { o with failures := o.failures + 1 }
  | refresh {e e' : E} {mine : List Order} (hanswer : out.myOrders e = (.ok mine, e')) :
      Does out o .refresh false true (o.mapLive fun _ => .new mine)

/-- A look that found nothing outlasts deletes, and nothing else. -/
def Action.rest : Action → Option Look → Option Look
  | .delete _, looked | .refresh, looked => looked.filter fun look => look.found.isNone
  | .create _ _, _ | .update _ _, _ | .updateLocal _ _, _ => none

namespace Desk

def look (d : Desk) (wfmId : String) (subType : WFSubType) (orderType : OrderType) (route : Route) : Desk :=
  let found := d.orders.findOrder wfmId subType orderType route
  { d with
    looked := some ⟨wfmId, subType, orderType, route, found⟩
    trace := d.trace ++ [.lookup wfmId subType orderType route found d.orders] }

def wrote (d : Desk) (action : Action) (sent succeeded : Bool) (after : TradeOrders) : Desk :=
  { d with
    orders := after
    looked := action.rest d.looked
    trace := d.trace ++ [.write ⟨action, sent, d.processing, succeeded, after⟩] }

def turnTo (d : Desk) (entry : ItemEntry) (warm : Bool) : Desk :=
  { d with processing := some warm, looked := none, trace := d.trace ++ [.turn entry] }

def blocked (d : Desk) (entry : ItemEntry) (orderType : OrderType) (route : Route)
    (wishList : List (String × String)) (victim : Option Order) : Desk :=
  { d with trace := d.trace ++ [.blocked entry orderType route wishList victim] }

def sweep (d : Desk) (settings : Settings) (entries : List ItemEntry) (now : Int) : Desk :=
  let orphans := orphanBuyOrders settings entries d.orders.cacheOrders
  let due := dueOrphans d.seen orphans now orphanGrace
  { d with
    seen := seeOrphans d.seen orphans now
    sweeps := d.sweeps ++ [⟨settings, entries, d.orders.cacheOrders, now, due⟩] }

/-- The writes that a cycle tries; it reads its orders again only after one that failed. -/
def Allows (d : Desk) : Action → Prop
  | .create params route => ∃ look, d.looked = some look ∧ look.found = none ∧ params.itemId = look.wfmId ∧
      params.orderType = look.orderType ∧ params.subtype = some look.subType ∧ route = look.route
  | .update id params | .updateLocal id params =>
      params.rank = none ∧ ∃ look o, d.looked = some look ∧ look.found = some o ∧ id = o.id
  | .delete _ => True
  | .refresh => ∃ write, Step.write write ∈ d.trace ∧ write.succeeded = false

end Desk

section Moves

variable {E : Type} (out : OrdersOutside E)

inductive Move : Desk → Desk → Prop
  | turn (d : Desk) (processing : Option Bool) : Move d { d with processing := processing, looked := none }
  | look (d : Desk) (wfmId : String) (subType : WFSubType) (orderType : OrderType) {warm : Bool}
      (hwarm : d.processing = some warm) :
      Move d (d.look wfmId subType orderType (routeFor d.orders.globalDryRun warm))
  | write {d : Desk} {action : Action} {sent succeeded : Bool} {after : TradeOrders}
      (hallow : d.Allows action) (hdoes : Does out d.orders action sent succeeded after) :
      Move d (d.wrote action sent succeeded after)
  | turnTo (d : Desk) (entry : ItemEntry) (warm : Bool) : Move d (d.turnTo entry warm)
  | blocked (d : Desk) (entry : ItemEntry) (orderType : OrderType) (route : Route)
      (wishList : List (String × String)) (victim : Option Order) :
      Move d (d.blocked entry orderType route wishList victim)
  | sweep (d : Desk) (settings : Settings) {entries : List ItemEntry} (now : Int)
      (hsweep : shouldSweep false entries = true) : Move d (d.sweep settings entries now)

abbrev Moves : Desk → Desk → Prop := ReflTransGen (Move out)

/-- The world as the moves see it. -/
def World.desk (w : World E) (looked : Option Look) : Desk :=
  ⟨w.orders, w.processing, looked, w.trace, w.orphanFirstSeen, w.sweeps⟩

/-- The moves from a desk lead here, with `p` in process. -/
structure At (d : Desk) (p : Option Bool) (dryRun : Bool) (looked : Option Look) (w : World E) : Prop where
  moves : Moves out d (w.desk looked)
  processing : w.processing = p
  dryRun : w.orders.globalDryRun = dryRun

end Moves

section Writes

variable {E : Type} {out : OrdersOutside E} {d : Desk} {p : Option Bool} {g : Bool} {looked : Option Look}
  {w : World E}

theorem Does.dryRun {o after : TradeOrders} {action : Action} {sent succeeded : Bool}
    (h : Does out o action sent succeeded after) : after.globalDryRun = o.globalDryRun := by
  cases h <;> rfl

theorem Action.refresh_rest (action : Action) (looked : Option Look) :
    Action.refresh.rest (action.rest looked) = action.rest looked := by
  cases action with
  | delete id => simp [Action.rest]
  | refresh => simp [Action.rest]
  | create params route => rfl
  | update id params => rfl
  | updateLocal id params => rfl

namespace At

theorem asked (h : At out d p g looked w) (e : E) : At out d p g looked { w with ext := e } :=
  ⟨h.moves, h.processing, h.dryRun⟩

theorem recorded (h : At out d p g looked w) {action : Action} {sent succeeded : Bool} {after : TradeOrders}
    (hallow : (w.desk looked).Allows action) (hdoes : Does out w.orders action sent succeeded after) :
    At out d p g (action.rest looked)
      { w with
        orders := after
        trace := w.trace ++ [.write ⟨action, sent, w.processing, succeeded, after⟩] } where
  moves := h.moves.tail (.write hallow hdoes)
  processing := h.processing
  dryRun := hdoes.dryRun.trans h.dryRun

theorem blocked (h : At out d p g looked w) (entry : ItemEntry) (orderType : OrderType) (route : Route)
    (wishList : List (String × String)) (victim : Option Order) :
    At out d p g looked { w with trace := w.trace ++ [.blocked entry orderType route wishList victim] } where
  moves := h.moves.tail (.blocked (w.desk looked) entry orderType route wishList victim)
  processing := h.processing
  dryRun := h.dryRun

theorem failed (h : At out d p g looked w) {action : Action} {sent : Bool}
    (hallow : (w.desk looked).Allows action) (hsent : sent = true → action.goesLive w.orders) :
    At out d p g (action.rest looked)
      { w with
        orders := { w.orders with failures := w.orders.failures + 1 }
        trace := w.trace ++ [.write ⟨action, sent, w.processing, false,
          { w.orders with failures := w.orders.failures + 1 }⟩] } :=
  h.recorded hallow (.failed action sent hsent)

end At

theorem refresh_at (h : At out d p g looked w) (hlooked : Action.refresh.rest looked = looked)
    (hfailed : ∃ write, Step.write write ∈ w.trace ∧ write.succeeded = false) :
    (refresh out).wp (fun _ t => At out d p g looked t) w := by
  rw [refresh, wp_bind, wp_read, next_ok, wp_ite]
  refine ⟨fun _ => ?_, fun _ => h⟩
  rw [wp_bind, ask, wp_act, next_ok]
  cases hmine : out.myOrders w.ext with
  | mk answer e =>
      cases answer with
      | error e' => exact h.asked e
      | ok mine =>
          have hrecorded : At out d p g (Action.refresh.rest looked) _ :=
            (h.asked e).recorded hfailed (.refresh hmine)
          rw [hlooked] at hrecorded
          exact hrecorded

/-- The end of a write that the market refused. -/
theorem finishLive_error_at {α : Type} (h : At out d p g looked w) {action : Action} {sent : Bool} (name verb : String)
    (e : ApiError) (hallow : (w.desk looked).Allows action) (hsent : sent = true → action.goesLive w.orders) :
    (finishLive out action name verb sent (.error e : Except ApiError α) w.orders).wp
      (fun _ t => At out d p g (action.rest looked) t) w := by
  have hrecorded := h.failed hallow hsent
  rw [finishLive, wp_bind, record, wp_change, next_ok, wp_ite]
  refine ⟨fun _ => ?_, fun _ => hrecorded⟩
  exact wp_seq (refresh_at hrecorded (action.refresh_rest looked) ⟨_, List.mem_concat_self, rfl⟩)
    (fun _ t ht => ht) fun _ t ht => ht

/-- The end of a write that the market took. -/
theorem finishLive_ok_at {α : Type} (h : At out d p g looked w) {action : Action} (name verb : String) (value : α)
    {after : TradeOrders} (hallow : (w.desk looked).Allows action)
    (hdoes : Does out w.orders action true true { after with failures := 0 }) :
    (finishLive out action name verb true (.ok value) after).wp
      (fun _ t => At out d p g (action.rest looked) t) w :=
  h.recorded hallow hdoes

/-- A live write is tried only with a client. -/
theorem liveClient_at (h : At out d p g looked w) (action : Action) (hallow : (w.desk looked).Allows action)
    {β : Type} {f : OrderRoute → TraderM E β}
    (hf : ∀ client, (f client).wp (fun _ t => At out d p g (action.rest looked) t) w) :
    (liveClient action >>= f).wp (fun _ t => At out d p g (action.rest looked) t) w := by
  rw [wp_bind, liveClient, wp_bind, wp_read, next_ok]
  split
  next client _ => exact hf client
  next => exact h.failed hallow fun hsent : false = true => by cases hsent

/-- A delete, and what a look before it is still worth. -/
theorem delete_at (h : At out d p g looked w) (orderId : String) :
    (delete out orderId).wp (fun _ t => At out d p g ((Action.delete orderId).rest looked) t) w := by
  rw [delete, wp_bind, wp_read, next_ok, wp_ite]
  refine ⟨fun hbook => h.recorded trivial (.bookDelete hbook), fun hbook => ?_⟩
  have hbook := Bool.eq_false_iff.mpr hbook
  refine liveClient_at h (.delete orderId) trivial fun client => ?_
  rw [wp_bind, wp_read, next_ok, wp_bind, ask, wp_act, next_ok]
  cases hdelete : out.delete orderId w.ext with
  | mk answer e =>
      cases answer with
      | ok deleted => exact finishLive_ok_at (h.asked e) _ _ _ trivial (.liveDelete hbook hdelete)
      | error e' => exact finishLive_error_at (h.asked e) _ _ e' trivial fun _ => hbook

theorem create_at (h : At out d p g looked w) (params : CreateOrderParams) (route : Route)
    (hallow : (w.desk looked).Allows (.create params route)) :
    (create out params route).wp (fun _ t => At out d p g none t) w := by
  cases route with
  | dryRun forcedBy =>
      rw [create, wp_bind, ask, wp_act, next_ok]
      exact (h.asked (out.uuid w.ext).2).recorded hallow (.simulatedCreate params forcedBy (out.uuid w.ext).1)
  | live =>
      refine liveClient_at h _ hallow fun client => ?_
      rw [wp_bind, wp_read, next_ok, wp_ite]
      refine ⟨fun _ => ?_, fun _ => finishLive_error_at h _ _ _ hallow nofun⟩
      rw [wp_bind, ask, wp_act, next_ok]
      cases hcreate : out.create params w.ext with
      | mk answer e =>
          cases answer with
          | ok answered => exact finishLive_ok_at (h.asked e) _ _ _ hallow (.liveCreate params hcreate)
          | error e' => exact finishLive_error_at (h.asked e) _ _ e' hallow fun _ => rfl

theorem update_at (h : At out d p g looked w) (orderId : String) (params : UpdateOrderParams)
    (hallow : (w.desk looked).Allows (.update orderId params)) :
    (update out orderId params).wp (fun _ t => At out d p g none t) w := by
  rw [update, wp_bind, wp_read, next_ok, wp_ite]
  refine ⟨fun hbook => ?_, fun hbook => ?_⟩
  · dsimp only
    cases (w.orders.book.update orderId params).getById orderId with
    | some order => exact h.recorded hallow (.bookUpdate params true hbook)
    | none => exact h.recorded hallow (.bookUpdate params false hbook)
  · have hbook := Bool.eq_false_iff.mpr hbook
    refine liveClient_at h _ hallow fun client => ?_
    rw [wp_bind, wp_read, next_ok, wp_bind, ask, wp_act, next_ok]
    cases hupdate : out.update orderId params w.ext with
    | mk answer e =>
        cases answer with
        | ok answered => exact finishLive_ok_at (h.asked e) _ _ _ hallow (.liveUpdate params hbook)
        | error e' => exact finishLive_error_at (h.asked e) _ _ e' hallow fun _ => hbook

theorem updateLocal_at (h : At out d p g looked w) (orderId : String) (params : UpdateOrderParams)
    (hallow : (w.desk looked).Allows (.updateLocal orderId params)) :
    (updateLocal orderId params : TraderM E Unit).wp (fun _ t => At out d p g none t) w := by
  rw [updateLocal, wp_bind, wp_read, next_ok, wp_ite]
  exact ⟨fun hbook => h.recorded hallow (.bookLocal params hbook),
    fun hbook => h.recorded hallow (.liveLocal params (Bool.eq_false_iff.mpr hbook))⟩

end Writes

/-! ### The writes of an entry -/

def ItemEntry.look (entry : ItemEntry) (orderType : OrderType) (route : Route) (found : Option Order) : Look :=
  ⟨entry.wfmId, .fromEntity entry.subType, orderType, route, found⟩

/-- The properties and operations an entry writes with are those of the order it found. -/
structure Answers (found : Option Order) (properties : Properties) (operations : OperationSet) : Prop where
  id : properties.id.getD "" = (OrderInfo.of found).orderId
  create : OperationSet.has operations "Create" = found.isNone
  update : OperationSet.has operations "Update" = found.isSome

section Progress

variable {E : Type} {out : OrdersOutside E} {d : Desk} {g warm : Bool} {looked : Option Look} {w : World E}
  {found : Option Order}

theorem getOrderInfo_at (h : At out d (some warm) g looked w) (entry : ItemEntry) (orderType : OrderType) :
    (getOrderInfo entry orderType (routeFor g warm) : TraderM E OrderInfo).wp
      (fun r t => ∃ found, r = .ok (.of found) ∧
        At out d (some warm) g (some (entry.look orderType (routeFor g warm) found)) t) w := by
  refine ⟨_, rfl, ?_, h.processing, h.dryRun⟩
  have hmove : Move out (w.desk looked) _ :=
    .look (w.desk looked) entry.wfmId (.fromEntity entry.subType) orderType h.processing
  have hdryRun : (w.desk looked).orders.globalDryRun = g := h.dryRun
  rw [hdryRun] at hmove
  exact h.moves.tail hmove

theorem freeSlot_at {look : Look} (hnone : look.found = none) (h : At out d (some warm) g (some look) w)
    (entry : ItemEntry) (route : Route) (orderType : OrderType) (slots : Slots) :
    (freeSlot out entry route orderType slots).wp (fun _ t => At out d (some warm) g (some look) t) w := by
  rw [freeSlot, wp_bind, wp_read, next_ok]
  dsimp only
  rw [wp_bind, wp_change, next_ok]
  have hblocked := h.blocked entry orderType route slots.wishList
    (sellSlotVictim w.orders route orderType slots.wishList)
  cases hvictim : sellSlotVictim w.orders route orderType slots.wishList with
  | none =>
      rw [hvictim] at hblocked
      exact hblocked
  | some victim =>
      rw [hvictim] at hblocked
      show wp (attempt (delete out victim.id) >>= _) _ _
      rw [wp_bind, wp_attempt]
      refine wp_mono (delete_at hblocked victim.id) fun r t ht => ?_
      rw [Action.rest, Option.filter_some_pos (by rw [hnone, Option.isNone_none])] at ht
      cases r with
      | ok => exact ht
      | error e => exact ht

theorem writeOrder_create_at (entry : ItemEntry) (orderType : OrderType) (route : Route) (postPrice : Nat)
    (perTrade : Option Int) {properties : Properties} {operations : OperationSet} (canCreateOrder : Bool)
    (hanswers : Answers none properties operations)
    (h : At out d (some warm) g (some (entry.look orderType route none)) w) :
    (writeOrder out entry route orderType postPrice perTrade properties operations canCreateOrder).wp
      (fun _ t => ∃ looked, At out d (some warm) g looked t) w := by
  rw [writeOrder, wp_ite]
  refine ⟨fun _ => ?_, fun _ => ?_⟩
  · exact wp_seq (create_at h _ route ⟨_, rfl, rfl, rfl, rfl, rfl, rfl⟩) (fun _ t ht => ⟨_, ht⟩)
      fun _ t ht => ⟨_, ht⟩
  · simp only [hanswers.update, Option.isSome_none, Bool.false_and, Bool.false_eq_true, if_false]
    exact ⟨_, h⟩

theorem writeOrder_update_at (entry : ItemEntry) (orderType : OrderType) (route : Route) (postPrice : Nat)
    (perTrade : Option Int) {properties : Properties} {operations : OperationSet} (canCreateOrder : Bool)
    {o : Order} (hanswers : Answers (some o) properties operations)
    (h : At out d (some warm) g (some (entry.look orderType route (some o))) w) :
    (writeOrder out entry route orderType postPrice perTrade properties operations canCreateOrder).wp
      (fun _ t => ∃ looked, At out d (some warm) g looked t) w := by
  have hid : properties.id.getD "" = o.id := hanswers.id
  simp only [writeOrder, hanswers.create, hanswers.update, hid, Option.isNone_some, Option.isSome_some,
    Bool.false_and, Bool.true_and, Bool.false_eq_true, if_false]
  rw [wp_ite]
  refine ⟨fun _ => ?_, fun _ => ?_⟩
  · rw [wp_bind, wp_read, next_ok, wp_ite]
    refine ⟨fun _ => ⟨_, updateLocal_at h o.id _ ⟨rfl, _, o, rfl, rfl, rfl⟩⟩, fun _ => ?_⟩
    exact wp_seq (update_at h o.id _ ⟨rfl, _, o, rfl, rfl, rfl⟩) (fun _ t ht => ⟨_, ht⟩) fun _ t ht => ⟨_, ht⟩
  · rw [wp_ite]
    refine ⟨fun _ => ?_, fun _ => ⟨_, h⟩⟩
    exact wp_seq (delete_at h o.id) (fun _ t ht => ⟨_, ht⟩) fun _ t ht => ⟨_, ht⟩

theorem progressOrder_at (entry : ItemEntry) (orderType : OrderType) (route : Route) (postPrice : Nat)
    (perTrade : Option Int) {properties : Properties} {operations : OperationSet} (slots : Slots)
    (hanswers : Answers found properties operations)
    (h : At out d (some warm) g (some (entry.look orderType route found)) w) :
    (progressOrder out entry route orderType postPrice perTrade properties operations slots).wp
      (fun _ t => ∃ looked, At out d (some warm) g looked t) w := by
  rw [progressOrder, wp_bind, wp_read, next_ok]
  cases found with
  | none =>
      have hwrite (canCreateOrder : Bool) {t : World E}
          (ht : At out d (some warm) g (some (entry.look orderType route none)) t) :=
        writeOrder_create_at entry orderType route postPrice perTrade canCreateOrder hanswers ht
      rw [wp_ite]
      refine ⟨fun _ => ?_, fun _ => hwrite _ h⟩
      exact wp_seq (freeSlot_at rfl h entry route orderType slots) (fun _ t ht => hwrite _ ht) fun _ t ht => ⟨_, ht⟩
  | some o =>
      simp only [hanswers.create, Option.isNone_some, Bool.false_and, Bool.false_eq_true, if_false]
      exact writeOrder_update_at entry orderType route postPrice perTrade _ hanswers h

end Progress

end Quantframe.Trader
