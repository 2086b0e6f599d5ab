import Quantframe.Trader.Cycles

/-!
# The dry run is airtight

Over any cycles of one `TradeOrders`, and whatever else changes the client's cached orders between them.
-/

namespace Quantframe.Trader

open Lib Lib.Effect Market

/-- A cycle, and what was done to the client's cached orders before it. -/
structure Round (F : Type) where
  meanwhile : OrderList → OrderList
  ctx : TradeContext F

def World.start {E : Type} (orders : TradeOrders) (ext : E) : World E := ⟨orders, [], ext, none, [], []⟩

section Rounds

variable {E F : Type} (num : PriceFloats F) (out : Outside E)

/-- The world after a round, however its cycle ends. -/
def Round.run (r : Round F) (w : World E) : World E :=
  ((check num out r.ctx).exec { w with orders := w.orders.mapLive r.meanwhile }).2

def rounds (rs : List (Round F)) (w : World E) : World E := rs.foldl (fun w r => r.run num out w) w

end Rounds

def Action.posts : Action → Bool
  | .create _ _ | .update _ _ => true
  | .updateLocal _ _ | .delete _ | .refresh => false

/-- What may be sent to the market. -/
structure Write.Permitted (globalDryRun : Bool) (write : Write) : Prop where
  live : globalDryRun = false
  warm : write.action.posts = true → write.entry = some true

theorem routeFor_eq_live {globalDryRun warm : Bool} :
    routeFor globalDryRun warm = .live ↔ globalDryRun = false ∧ warm = true := by
  cases globalDryRun <;> cases warm <;> simp [routeFor]

structure Airtight (g : Bool) (d : Desk) : Prop where
  dryRun : d.orders.globalDryRun = g
  sent : ∀ write, Step.write write ∈ d.trace → write.sent = true → write.Permitted g
  looked : ∀ look, d.looked = some look → ∃ warm, d.processing = some warm ∧ look.route = routeFor g warm ∧
    ∀ o, look.found = some o → look.route ≠ .live → d.orders.inBook o.id = true

section Steps

variable {E : Type} {out : OrdersOutside E} {g : Bool} {d d' : Desk}

theorem Does.goesLive {o after : TradeOrders} {action : Action} {sent succeeded : Bool}
    (h : Does out o action sent succeeded after) (hsent : sent = true) : action.goesLive o := by
  cases h with
  | liveCreate => rfl
  | liveUpdate params hbook => exact hbook
  | liveDelete hbook => exact hbook
  | failed _ _ hgoes => exact hgoes hsent
  | simulatedCreate => cases hsent
  | bookUpdate => cases hsent
  | bookLocal => cases hsent
  | liveLocal => cases hsent
  | bookDelete => cases hsent
  | refresh => cases hsent

theorem TradeOrders.global_of_not_inBook {o : TradeOrders} {id : String} (h : o.inBook id = false) :
    o.globalDryRun = false := (Bool.or_eq_false_iff.mp h).1

/-- A look that does not find its order in the simulated book was made on the live route. -/
theorem Airtight.warm_of_live (h : Airtight g d) {look : Look} (hlook : d.looked = some look)
    (hlive : look.route = .live) : g = false ∧ d.processing = some true := by
  obtain ⟨warm, hprocessing, hroute, -⟩ := h.looked look hlook
  obtain ⟨hg, rfl⟩ := routeFor_eq_live.mp (hroute.symm.trans hlive)
  exact ⟨hg, hprocessing⟩

theorem Airtight.permits (h : Airtight g d) {action : Action} (hallow : d.Allows action)
    (hgoes : action.goesLive d.orders) :
    g = false ∧ (action.posts = true → d.processing = some true) := by
  cases action with
  | create params route =>
      obtain ⟨look, hlook, -, -, -, -, hroute⟩ := hallow
      obtain ⟨hg, hwarm⟩ := h.warm_of_live hlook (hroute.symm.trans hgoes)
      exact ⟨hg, fun _ => hwarm⟩
  | update id params =>
      obtain ⟨-, look, o, hlook, hfound, rfl⟩ := hallow
      obtain ⟨-, -, -, hbook⟩ := h.looked look hlook
      have hlive : look.route = .live := by
        by_contra hne
        have := hbook o hfound hne
        rw [show d.orders.inBook o.id = false from hgoes] at this
        cases this
      obtain ⟨hg, hwarm⟩ := h.warm_of_live hlook hlive
      exact ⟨hg, fun _ => hwarm⟩
  | delete id => exact ⟨h.dryRun.symm.trans (TradeOrders.global_of_not_inBook hgoes), nofun⟩
  | updateLocal id params => exact hgoes.elim
  | refresh => exact hgoes.elim

theorem Action.found_of_rest {action : Action} {looked : Option Look} {look : Look}
    (h : action.rest looked = some look) : looked = some look ∧ look.found = none := by
  cases action with
  | delete id =>
      obtain ⟨hlook, hnone⟩ := Option.filter_eq_some_iff.mp h
      exact ⟨hlook, Option.isNone_iff_eq_none.mp hnone⟩
  | refresh =>
      obtain ⟨hlook, hnone⟩ := Option.filter_eq_some_iff.mp h
      exact ⟨hlook, Option.isNone_iff_eq_none.mp hnone⟩
  | create params route => cases h
  | update id params => cases h
  | updateLocal id params => cases h

theorem TradeOrders.inBook_of_find {o : TradeOrders} {wfmId : String} {subType : WFSubType}
    {orderType : OrderType} {forcedBy : ForcedBy} {order : Order}
    (h : o.findOrder wfmId subType orderType (.dryRun forcedBy) = some order) : o.inBook order.id = true := by
  have hmem : order ∈ o.book.toVec := by
    have hside := List.mem_of_find?_eq_some h
    cases orderType with
    | sell => exact List.mem_append_left _ hside
    | buy => exact List.mem_append_right _ hside
  rw [TradeOrders.inBook, Bool.or_eq_true]
  right
  rw [OrderList.getById, List.find?_isSome]
  exact ⟨order, hmem, by simp⟩

/-- A write is in the trace before an entry of another kind. -/
theorem mem_of_mem_concat {trace : List Step} {step : Step} {write : Write}
    (hwrite : Step.write write ∈ trace ++ [step]) (hother : ∀ w, step ≠ .write w) : Step.write write ∈ trace := by
  rcases List.mem_append.mp hwrite with hold | hnew
  · exact hold
  · exact absurd (List.mem_singleton.mp hnew).symm (hother write)

theorem Airtight.move (h : Airtight g d) (hmove : Move out d d') : Airtight g d' := by
  cases hmove with
  | turn processing => exact ⟨h.dryRun, h.sent, fun _ hlook => by cases hlook⟩
  | sweep settings now hsweep => exact ⟨h.dryRun, h.sent, h.looked⟩
  | turnTo entry warm =>
      refine ⟨h.dryRun, fun write hwrite => h.sent write (mem_of_mem_concat hwrite fun _ h => by cases h), ?_⟩
      intro _ hlook
      cases hlook
  | blocked entry orderType route wishList victim =>
      exact ⟨h.dryRun, fun write hwrite => h.sent write (mem_of_mem_concat hwrite fun _ h => by cases h), h.looked⟩
  | look wfmId subType orderType hwarm =>
      refine ⟨h.dryRun, fun write hwrite => h.sent write (mem_of_mem_concat hwrite fun _ h => by cases h), ?_⟩
      rintro look hlook
      cases hlook
      refine ⟨_, hwarm, by rw [h.dryRun], fun o hfound hlive => ?_⟩
      dsimp only at hfound hlive
      cases hroute : routeFor d.orders.globalDryRun _ with
      | live => exact absurd hroute hlive
      | dryRun forcedBy =>
          rw [hroute] at hfound
          exact TradeOrders.inBook_of_find hfound
  | write hallow hdoes =>
      refine ⟨hdoes.dryRun.trans h.dryRun, fun write hwrite hsent => ?_, fun look hlook => ?_⟩
      · rcases List.mem_append.mp hwrite with hold | hnew
        · exact h.sent write hold hsent
        · cases List.mem_singleton.mp hnew
          obtain ⟨hlive, hwarm⟩ := h.permits hallow (hdoes.goesLive hsent)
          exact ⟨hlive, hwarm⟩
      · obtain ⟨hlook, hnone⟩ := Action.found_of_rest hlook
        obtain ⟨warm, hprocessing, hroute, -⟩ := h.looked look hlook
        refine ⟨warm, hprocessing, hroute, fun o hfound => ?_⟩
        rw [hnone] at hfound
        cases hfound

theorem Airtight.moves (h : Airtight g d) (hmoves : Moves out d d') : Airtight g d' := by
  induction hmoves with
  | refl => exact h
  | tail _ hmove ih => exact ih.move hmove

end Steps

section Runs

variable {E F : Type} (num : PriceFloats F) (out : Outside E) {g : Bool}

theorem Airtight.round (r : Round F) {w : World E} (h : Airtight g (w.desk none)) :
    Airtight g ((r.run num out w).desk none) := by
  have hstart : Airtight g (World.desk { w with orders := w.orders.mapLive r.meanwhile } none) :=
    ⟨h.dryRun, h.sent, fun _ hlook => by cases hlook⟩
  have hreached : Reached out.toOrdersOutside _ g (r.run num out w) :=
    check_reached _ ⟨_, none, Relation.ReflTransGen.refl, rfl, hstart.dryRun⟩
  obtain ⟨p, looked, hat⟩ := hreached
  have hend := hstart.moves hat.moves
  exact ⟨hend.dryRun, hend.sent, fun _ hlook => by cases hlook⟩

/-- Nothing is sent in a global dry run, and nothing is posted for an entry that is not warm. -/
theorem dry_run_airtight (live : Option OrderRoute) (globalDryRun : Bool) (rs : List (Round F)) (ext : E) :
    ∀ write, Step.write write ∈ (rounds num out rs (.start (.new live globalDryRun) ext)).trace →
      write.sent = true → write.Permitted globalDryRun := by
  have hrun : Airtight globalDryRun
      ((rounds num out rs (.start (.new live globalDryRun) ext)).desk none) := by
    refine List.foldlRecOn rs _ (motive := fun w : World E => Airtight globalDryRun (w.desk none)) ?_
      fun w hw r _ => hw.round num out r
    refine ⟨rfl, ?_, ?_⟩
    · intro write hwrite
      cases hwrite
    · intro look hlook
      cases hlook
  exact hrun.sent

end Runs

def Step.isSent : Step → Bool
  | .lookup .. | .turn _ | .blocked .. => false
  | .write w => w.sent

theorem dry_run_airtight_warm_bid :
    ∃ write, Step.write write ∈ (rounds PriceFloats.whole (.willing [.bid "lens"] .spread)
        [⟨id, .sample .plain true⟩] (.start (.new (some ⟨.new [], 100⟩) false) 0)).trace ∧
      write.sent = true ∧ write.Permitted false := by
  have hsent : (rounds PriceFloats.whole (.willing [.bid "lens"] .spread)
      [⟨id, .sample .plain true⟩] (.start (.new (some ⟨.new [], 100⟩) false) 0)).trace.any Step.isSent = true := by
    decide +kernel
  obtain ⟨step, hmem, hstep⟩ := List.any_eq_true.mp hsent
  cases step with
  | lookup wfmId subType orderType route found orders => cases hstep
  | turn entry => cases hstep
  | blocked entry orderType route wishList victim => cases hstep
  | write write => exact ⟨write, hmem, hstep, dry_run_airtight _ _ _ _ _ _ write hmem hstep⟩

end Quantframe.Trader
