import Mathlib.Algebra.Order.BigOperators.Group.List
import Quantframe.Trader.Airtight
import Quantframe.Trader.BestSelection
import Quantframe.Trader.Deletes

/-!
# The cap on all buy orders

After the entries of a cycle, one knapsack over all cached buy orders decides which ones go.
-/

namespace Quantframe.Trader

open Lib Lib.Effect Market

/-- What all cached buy orders cost together. -/
def spend (o : TradeOrders) : Int := (o.cacheOrders.buyOrders.map fun x => (x.platinum : Int)).sum

section Knapsack

variable {F : Type} (num : PriceFloats F) (cap : Int) (existing : List String) (list : OrderList)

/-- The global knapsack runs on two orders or more. -/
def selected : List (Weighed F) :=
  let all := extractOrderSummary num list .buy
  if 1 < all.length then (knapsack num all cap).1 else []

/-- What the global knapsack deletes. -/
def dropped : List String :=
  let all := extractOrderSummary num list .buy
  if 1 < all.length then
    ((knapsack num all cap).2.filter fun i => ¬ (i.id = "" ∨ i.id ∉ existing)).map Weighed.id
  else []

/-- What the global knapsack leaves standing unselected: a lone order, and those that were not there when
the cycle began. -/
def spared : List (Weighed F) :=
  let all := extractOrderSummary num list .buy
  if 1 < all.length then (knapsack num all cap).2.filter fun i => i.id = "" ∨ i.id ∉ existing else all

/-- The global knapsack may not delete an order that it leaves out: there is only that one, or it was not there when
the cycle began. -/
def Spares : Prop :=
  list.buyOrders.length = 1 ∨
    ∃ i ∈ (knapsack num (extractOrderSummary num list .buy) cap).2, i.id = "" ∨ i.id ∉ existing

instance : Decidable (Spares num cap existing list) := inferInstanceAs (Decidable (_ ∨ _))

variable {num cap existing list}

theorem spared_eq_nil (h : ¬ Spares num cap existing list) : spared num cap existing list = [] := by
  rw [Spares, not_or] at h
  have hlength : (extractOrderSummary num list .buy).length = list.buyOrders.length := List.length_map _
  rw [spared]
  split
  next =>
    refine List.filter_eq_nil_iff.mpr fun i hi hspared => ?_
    exact h.2 ⟨i, hi, of_decide_eq_true hspared⟩
  next hfew => exact List.eq_nil_of_length_eq_zero (by omega)

theorem weights_perm {items items' : List (Weighed F)} (h : items.Perm items') : weights items = weights items' :=
  (h.map Weighed.weight).sum_eq

theorem weights_append (items items' : List (Weighed F)) :
    weights (items ++ items') = weights items + weights items' := by
  rw [weights, List.map_append, List.sum_append]
  rfl

theorem summary_nonneg {i : Weighed F} {side : OrderType} (hi : i ∈ extractOrderSummary num list side) :
    0 ≤ i.weight := by
  obtain ⟨o, -, rfl⟩ := List.mem_map.mp hi
  exact Int.natCast_nonneg _

/-- What the orders with some ids cost, on the summary. -/
theorem weights_summary (p : String → Bool) (side : OrderType) :
    weights ((extractOrderSummary num list side).filter fun i => p i.id) =
      (((list.side side).filter fun o => p o.id).map fun o => (o.platinum : Int)).sum := by
  rw [extractOrderSummary, List.filter_map, weights, List.map_map]
  rfl

theorem spared_eq (hspared : 1 < (extractOrderSummary num list .buy).length) :
    spared num cap existing list =
      (knapsack num (extractOrderSummary num list .buy) cap).2.filter
        fun i => i.id ∉ dropped num cap existing list := by
  simp only [spared, dropped, if_pos hspared]
  refine List.filter_congr fun i hi => ?_
  simp only [List.mem_map, List.mem_filter, decide_eq_true_eq, decide_eq_decide]
  constructor
  · rintro hkeep ⟨j, ⟨-, hdrop⟩, hid⟩
    rw [hid] at hdrop
    exact hdrop hkeep
  · intro hnot
    by_contra hdrop
    exact hnot ⟨i, ⟨hi, hdrop⟩, rfl⟩

theorem weights_le_of_sublist {items items' : List (Weighed F)} (h : items.Sublist items')
    (hnonneg : ∀ i ∈ items', 0 ≤ i.weight) : weights items ≤ weights items' := by
  refine (h.map Weighed.weight).sum_le_sum fun weight hweight => ?_
  obtain ⟨i, hi, rfl⟩ := List.mem_map.mp hweight
  exact hnonneg i hi

/-- What is selected fits, and so does a part of it. -/
theorem weights_selected_le {p : Weighed F → Bool} (hcap : 0 ≤ cap) :
    weights ((selected num cap list).filter p) ≤ cap := by
  by_cases hmany : 1 < (extractOrderSummary num list .buy).length
  · rw [selected, if_pos hmany]
    have hmem : ∀ i ∈ (knapsack num (extractOrderSummary num list .buy) cap).1, 0 ≤ i.weight := fun i hi =>
      summary_nonneg ((knapsack_perm num _ cap).subset (List.mem_append_left _ hi))
    exact (weights_le_of_sublist List.filter_sublist hmem).trans
      (weights_knapsack_le (fun i hi => summary_nonneg hi) hcap)
  · rw [selected, if_neg hmany]
    exact hcap

/-- What stays is what was selected and what was spared. -/
theorem spend_stays (num : PriceFloats F) (cap : Int) (existing gone : List String) (list : OrderList) :
    ((((list.side .buy).filter fun o => o.id ∉ dropped num cap existing list).filter
        fun o => o.id ∉ gone).map fun o => (o.platinum : Int)).sum =
      weights ((selected num cap list).filter fun i => i.id ∉ dropped num cap existing list ∧ i.id ∉ gone) +
        weights ((spared num cap existing list).filter fun i => i.id ∉ gone) := by
  have hsummary : weights ((extractOrderSummary num list .buy).filter _) = _ := weights_summary
    (fun id => decide (id ∉ gone) && decide (id ∉ dropped num cap existing list)) .buy
  rw [List.filter_filter, ← hsummary]
  simp only [Bool.decide_and, Bool.and_comm (decide (_ ∉ dropped num cap existing list))]
  by_cases hmany : 1 < (extractOrderSummary num list .buy).length
  · rw [spared_eq hmany, List.filter_filter, selected, if_pos hmany,
      weights_perm ((knapsack_perm num (extractOrderSummary num list .buy) cap).symm.filter _),
      List.filter_append, weights_append]
  · simp [selected, dropped, spared, if_neg hmany, weights]

end Knapsack

section Cycle

variable {E F : Type} {num : PriceFloats F} {out : Outside E} {ctx : TradeContext F} {w : World E}

theorem holdCap_deleted (num : PriceFloats F) (hmarket : out.toOrdersOutside.Tagged) (existing : List String)
    (henabled : isDisabled ctx.settings.wtb.maxTotalPriceCap = false) (w : World E) :
    (holdCap num out ctx existing).wp (fun r t => r = .ok () ∧
      Deleted (dropped num ctx.settings.wtb.maxTotalPriceCap existing w.orders.cacheOrders) w t) w := by
  rw [holdCap, wp_bind, wp_read, next_ok]
  dsimp only
  rw [wp_ite]
  refine ⟨fun hmany => ?_, fun hfew => ?_⟩
  · have hflat : ∀ items : List (Weighed F),
        (items.filter fun i => ¬ (i.id = "" ∨ i.id ∉ existing)).map Weighed.id =
          items.flatMap fun i => if i.id = "" ∨ i.id ∉ existing then [] else [i.id] := by
      intro items
      induction items with
      | nil => rfl
      | cons i items ih =>
          rw [List.flatMap_cons, ← ih, List.filter_cons]
          by_cases hi : i.id = "" ∨ i.id ∉ existing
          · simp [hi]
          · simp [hi]
    rw [dropped, if_pos hmany.1, hflat]
    refine each_deleted _ (fun order _ s => ?_) w
    rw [wp_ite]
    refine ⟨fun hkeep => ?_, fun hdrop => ?_⟩
    · rw [if_pos hkeep]
      exact ⟨rfl, .refl s⟩
    · rw [if_neg hdrop]
      exact wp_mono (tryDelete_deleting order.id) fun _ _ ht => ⟨ht.1, ht.2.deleted hmarket⟩
  · rw [dropped, if_neg (fun hmany => hfew ⟨hmany, henabled⟩)]
    exact ⟨rfl, .refl w⟩

/-- How often the global knapsack writes, at least. -/
theorem holdCap_writes (num : PriceFloats F) (out : Outside E) (existing : List String)
    (henabled : isDisabled ctx.settings.wtb.maxTotalPriceCap = false)
    (hmany : 1 < (extractOrderSummary num w.orders.cacheOrders .buy).length) :
    w.trace.length + ((knapsack num (extractOrderSummary num w.orders.cacheOrders .buy)
        ctx.settings.wtb.maxTotalPriceCap).2.filter fun i => ¬ (i.id = "" ∨ i.id ∉ existing)).length ≤
      ((holdCap num out ctx existing).exec w).2.trace.length := by
  have hrun : (holdCap num out ctx existing).wp (fun r t => r = .ok () ∧
      w.trace.length + ((knapsack num (extractOrderSummary num w.orders.cacheOrders .buy)
        ctx.settings.wtb.maxTotalPriceCap).2.filter fun i => ¬ (i.id = "" ∨ i.id ∉ existing)).length ≤
      t.trace.length) w := by
    rw [holdCap, wp_bind, wp_read, next_ok]
    dsimp only
    rw [if_pos ⟨hmany, henabled⟩]
    refine wp_each (R := fun items s t => s.trace.length +
      (items.filter fun i : Weighed F => ¬ (i.id = "" ∨ i.id ∉ existing)).length ≤ t.trace.length)
      (fun s => le_refl _) (fun i items s t u h h' => ?_) (fun i _ s => ?_) w
    · rw [List.filter_cons] at h ⊢
      split at h
      next hdrop =>
        rw [if_pos hdrop, List.length_cons]
        rw [List.length_cons] at h
        omega
      next hkeep =>
        rw [if_neg hkeep]
        omega
    · rw [wp_ite]
      refine ⟨fun hkeep => ⟨rfl, ?_⟩, fun hdrop => ?_⟩
      · have hnone : [i].filter (fun i : Weighed F => ¬ (i.id = "" ∨ i.id ∉ existing)) = [] := by
          refine List.filter_eq_nil_iff.mpr fun j hj hdrop => ?_
          cases List.mem_singleton.mp hj
          exact of_decide_eq_true hdrop hkeep
        rw [hnone]
        exact le_refl _
      · refine wp_mono (tryDelete_deleting i.id) fun r t ht => ⟨ht.1, ?_⟩
        obtain ⟨_, _, _, -, htrace, -⟩ := ht.2.wrote
        have hlength := htrace.length_le
        rw [List.length_append] at hlength
        refine le_trans (Nat.add_le_add_left ?_ _) hlength
        exact List.length_filter_le _ _
  exact hrun.2

/-- Where it drops nothing, it leaves the world alone. -/
theorem holdCap_idle (num : PriceFloats F) (out : Outside E) (existing : List String)
    (hkeep : ∀ i ∈ (knapsack num (extractOrderSummary num w.orders.cacheOrders .buy)
      ctx.settings.wtb.maxTotalPriceCap).2, i.id = "" ∨ i.id ∉ existing) :
    (holdCap num out ctx existing).wp (fun r t => r = .ok () ∧ w = t) w := by
  rw [holdCap, wp_bind, wp_read, next_ok]
  dsimp only
  rw [wp_ite]
  refine ⟨fun _ => ?_, fun _ => ⟨rfl, rfl⟩⟩
  refine wp_each (R := fun _ s t => s = t) (fun s => rfl) (fun _ _ _ _ _ h h' => h.trans h') (fun i hi s => ?_) w
  rw [if_pos (hkeep i hi)]
  exact ⟨rfl, rfl⟩

theorem weights_all (num : PriceFloats F) (list : OrderList) :
    weights (extractOrderSummary num list .buy) = (list.buyOrders.map fun o => (o.platinum : Int)).sum := by
  rw [weights, extractOrderSummary, List.map_map]
  rfl

/-- When all buy orders fit under the cap, exactly those go whose profit does not raise the running total of
the profits before it, and that were there when the cycle began. -/
theorem knapsack_deletes_nothing (existing : List String) (w : World E)
    (henabled : isDisabled ctx.settings.wtb.maxTotalPriceCap = false)
    (hfits : spend w.orders ≤ ctx.settings.wtb.maxTotalPriceCap) :
    ((holdCap num out ctx existing).exec w).2.trace = w.trace ↔
      w.orders.cacheOrders.buyOrders.length ≤ 1 ∨
        ∀ i ∈ leftOut num (num.ofInt 0) (extractOrderSummary num w.orders.cacheOrders .buy),
          i.id = "" ∨ i.id ∉ existing := by
  have hleft : (knapsack num (extractOrderSummary num w.orders.cacheOrders .buy) _).2 = _ :=
    knapsack_of_fits (fun i hi => summary_nonneg hi) ((weights_all num _).trans_le hfits)
  have hlength : (extractOrderSummary num w.orders.cacheOrders .buy).length =
      w.orders.cacheOrders.buyOrders.length := List.length_map _
  constructor
  · intro htrace
    by_contra hnot
    rw [not_or, not_le, ← hlength] at hnot
    have hwrites := holdCap_writes num out existing henabled hnot.1
    rw [htrace, hleft] at hwrites
    refine hnot.2 fun i hi => ?_
    by_contra hdrop
    have hmem : i ∈ (leftOut num (num.ofInt 0) (extractOrderSummary num w.orders.cacheOrders .buy)).filter
        fun i => ¬ (i.id = "" ∨ i.id ∉ existing) := List.mem_filter.mpr ⟨hi, decide_eq_true hdrop⟩
    have := List.length_pos_of_mem hmem
    omega
  · rintro (hfew | hkeep)
    · have hidle : (holdCap num out ctx existing).wp (fun _ t => t.trace = w.trace) w := by
        rw [holdCap, wp_bind, wp_read, next_ok]
        dsimp only
        rw [hlength, if_neg fun h => absurd h.1 (Nat.not_lt.mpr hfew)]
        rfl
      exact hidle
    · rw [← hleft] at hkeep
      have hidle := holdCap_idle num out existing hkeep
      exact congrArg World.trace hidle.2.symm

/-! ### After a cycle -/

/-- The orders that the sweep of a cycle deletes. -/
def swept (out : Outside E) (ctx : TradeContext F) (entries : List ItemEntry) (w : World E) : List String :=
  if shouldSweep false entries then
    dueOrphans w.orphanFirstSeen (orphanBuyOrders ctx.settings entries w.orders.cacheOrders) (out.now w.ext).1
      orphanGrace
  else []

theorem sweepOrphans_deleted (hmarket : out.toOrdersOutside.Tagged) (entries : List ItemEntry) (w : World E)
    (hsweep : shouldSweep false entries = true) :
    (sweepOrphans out ctx entries).wp (fun r t => r = .ok () ∧ w.trace <+: t.trace ∧
      ((∀ step ∈ t.trace, step.Succeeded) → w.orders.Tidy → (t.orders.cacheOrders.side .buy).Perm
        ((w.orders.cacheOrders.side .buy).filter fun x => x.id ∉ swept out ctx entries w))) w := by
  rw [sweepOrphans, wp_bind, ask, wp_act, next_ok, wp_bind, wp_read, next_ok, wp_bind, wp_read, next_ok,
    wp_bind, wp_change, next_ok]
  refine wp_mono (each_deleted (fun id => [id])
    (fun id _ s => wp_mono (tryDelete_deleting id) fun _ _ ht => ⟨ht.1, ht.2.deleted hmarket⟩) _) ?_
  rintro r t ⟨rfl, hdeleted⟩
  refine ⟨rfl, hdeleted.trace, fun hsucceeded htidy => ?_⟩
  obtain ⟨-, hside⟩ := hdeleted.orders hsucceeded htidy
  rw [List.flatMap_singleton'] at hside
  rw [swept, if_pos hsweep]
  exact hside .buy

theorem processItems_end (hmarket : out.toOrdersOutside.Tagged) {items : List ItemEntry} {w w₁ : World E}
    {existing : List String} (henabled : isDisabled ctx.settings.wtb.maxTotalPriceCap = false)
    (hentries : (processEntries num out ctx (byPriority items)).exec w = (.ok (false, existing), w₁)) :
    (processItems num out ctx items).wp (fun _ t =>
      ((holdCap num out ctx existing).exec w₁).2.trace <+: t.trace ∧
      ((∀ step ∈ t.trace, step.Succeeded) → ((holdCap num out ctx existing).exec w₁).2.orders.Tidy →
        (t.orders.cacheOrders.side .buy).Perm
          ((((holdCap num out ctx existing).exec w₁).2.orders.cacheOrders.side .buy).filter fun x =>
            x.id ∉ swept out ctx (byPriority items) ((holdCap num out ctx existing).exec w₁).2))) w := by
  have hhold := holdCap_deleted num hmarket existing henabled w₁
  rw [processItems]
  dsimp only
  rw [wp_bind, wp, hentries, next_ok]
  dsimp only
  rw [wp_bind, wp, hhold.1, next_ok, wp_ite]
  refine ⟨fun hsweep => ?_, fun hsweep => ?_⟩
  · rw [wp_bind]
    refine wp_mono (sweepOrphans_deleted hmarket (byPriority items) _ hsweep) ?_
    rintro r t ⟨rfl, htrace, horders⟩
    exact ⟨htrace, horders⟩
  · refine ⟨List.prefix_rfl, fun _ _ => ?_⟩
    rw [swept, if_neg hsweep, List.filter_eq_self.mpr fun x _ => decide_eq_true List.not_mem_nil]
    exact .refl _

/-- After a cycle that ran to its end, with every write a success, what stays of the buy orders is what neither the
global knapsack nor the sweep deleted. -/
theorem spend_after_deletes (hmarket : out.toOrdersOutside.Tagged) {items : List ItemEntry} {w w₁ : World E}
    {existing : List String} (htidy : w.orders.Tidy)
    (henabled : isDisabled ctx.settings.wtb.maxTotalPriceCap = false)
    (hentries : (processEntries num out ctx (byPriority items)).exec w = (.ok (false, existing), w₁))
    (hsucceeded : ∀ step ∈ ((processItems num out ctx items).exec w).2.trace, step.Succeeded) :
    spend ((processItems num out ctx items).exec w).2.orders =
      ((((w₁.orders.cacheOrders.side .buy).filter fun o =>
          o.id ∉ dropped num ctx.settings.wtb.maxTotalPriceCap existing w₁.orders.cacheOrders).filter fun o =>
        o.id ∉ swept out ctx (byPriority items) ((holdCap num out ctx existing).exec w₁).2).map
          fun o => (o.platinum : Int)).sum := by
  have hhold := holdCap_deleted num hmarket existing henabled w₁
  obtain ⟨htrace, horders⟩ := processItems_end hmarket henabled hentries
  have hgood₂ : ∀ step ∈ ((holdCap num out ctx existing).exec w₁).2.trace, step.Succeeded :=
    fun step hstep => hsucceeded step (htrace.subset hstep)
  have hgood₁ : ∀ step ∈ w₁.trace, step.Succeeded :=
    fun step hstep => hgood₂ step (hhold.2.trace.subset hstep)
  have hreached : Reached out.toOrdersOutside (w.desk none) w.orders.globalDryRun
      ((processEntries num out ctx (byPriority items)).exec w).2 :=
    processEntries_reached _ w ⟨_, none, .refl, rfl, rfl⟩
  rw [hentries] at hreached
  obtain ⟨p, looked, hat⟩ := hreached
  have htidy₁ := tidy_of_moves hmarket hat.moves htidy hgood₁
  obtain ⟨htidy₂, hside⟩ := hhold.2.orders hgood₂ htidy₁
  have hbuys := (horders hsucceeded htidy₂).trans ((hside .buy).filter _)
  exact (hbuys.map fun x : Order => (x.platinum : Int)).sum_eq

/-- The selected ones and those that were spared, less what was swept. -/
theorem spend_after_cycle (hmarket : out.toOrdersOutside.Tagged) {items : List ItemEntry} {w w₁ : World E}
    {existing : List String} (htidy : w.orders.Tidy)
    (henabled : isDisabled ctx.settings.wtb.maxTotalPriceCap = false)
    (hentries : (processEntries num out ctx (byPriority items)).exec w = (.ok (false, existing), w₁))
    (hsucceeded : ∀ step ∈ ((processItems num out ctx items).exec w).2.trace, step.Succeeded) :
    spend ((processItems num out ctx items).exec w).2.orders =
      weights ((selected num ctx.settings.wtb.maxTotalPriceCap w₁.orders.cacheOrders).filter fun i =>
          i.id ∉ dropped num ctx.settings.wtb.maxTotalPriceCap existing w₁.orders.cacheOrders ∧
            i.id ∉ swept out ctx (byPriority items) ((holdCap num out ctx existing).exec w₁).2) +
        weights ((spared num ctx.settings.wtb.maxTotalPriceCap existing w₁.orders.cacheOrders).filter fun i =>
          i.id ∉ swept out ctx (byPriority items) ((holdCap num out ctx existing).exec w₁).2) := by
  rw [spend_after_deletes hmarket htidy henabled hentries hsucceeded, spend_stays]

/-- Nothing is added to the buy orders once the entries are done. -/
theorem spend_le_of_entries (hmarket : out.toOrdersOutside.Tagged) {items : List ItemEntry} {w w₁ : World E}
    {existing : List String} (htidy : w.orders.Tidy)
    (henabled : isDisabled ctx.settings.wtb.maxTotalPriceCap = false)
    (hentries : (processEntries num out ctx (byPriority items)).exec w = (.ok (false, existing), w₁))
    (hsucceeded : ∀ step ∈ ((processItems num out ctx items).exec w).2.trace, step.Succeeded) :
    spend ((processItems num out ctx items).exec w).2.orders ≤ spend w₁.orders := by
  rw [spend_after_deletes hmarket htidy henabled hentries hsucceeded]
  refine ((List.filter_sublist.trans List.filter_sublist).map _).sum_le_sum fun platinum hplatinum => ?_
  obtain ⟨o, -, rfl⟩ := List.mem_map.mp hplatinum
  exact Int.natCast_nonneg _

/-- They fit under the cap where none was spared. -/
theorem spend_le_of_none_spared (hmarket : out.toOrdersOutside.Tagged) {items : List ItemEntry}
    {w w₁ : World E} {existing : List String} (htidy : w.orders.Tidy)
    (henabled : isDisabled ctx.settings.wtb.maxTotalPriceCap = false)
    (hentries : (processEntries num out ctx (byPriority items)).exec w = (.ok (false, existing), w₁))
    (hsucceeded : ∀ step ∈ ((processItems num out ctx items).exec w).2.trace, step.Succeeded)
    (hnone : ¬ Spares num ctx.settings.wtb.maxTotalPriceCap existing w₁.orders.cacheOrders) :
    spend ((processItems num out ctx items).exec w).2.orders ≤ ctx.settings.wtb.maxTotalPriceCap := by
  have hcap : 0 ≤ ctx.settings.wtb.maxTotalPriceCap := by
    have := of_decide_eq_false henabled
    omega
  rw [spend_after_cycle hmarket htidy henabled hentries hsucceeded, spared_eq_nil hnone]
  refine (Int.add_le_add_right (weights_selected_le hcap) _).trans ?_
  exact (Int.add_zero _).le

/-- The buy orders fit under the cap after a cycle if they do once its entries are done, or if the global knapsack may
delete every order that it leaves out. -/
theorem total_buy_cap (hmarket : out.toOrdersOutside.Tagged) {items : List ItemEntry} {w w₁ : World E}
    {existing : List String} (htidy : w.orders.Tidy)
    (henabled : isDisabled ctx.settings.wtb.maxTotalPriceCap = false)
    (hentries : (processEntries num out ctx (byPriority items)).exec w = (.ok (false, existing), w₁))
    (hcond : spend w₁.orders ≤ ctx.settings.wtb.maxTotalPriceCap ∨
      ¬ Spares num ctx.settings.wtb.maxTotalPriceCap existing w₁.orders.cacheOrders)
    (hsucceeded : ∀ step ∈ ((processItems num out ctx items).exec w).2.trace, step.Succeeded) :
    spend ((processItems num out ctx items).exec w).2.orders ≤ ctx.settings.wtb.maxTotalPriceCap := by
  rcases hcond with hfits | hnone
  · exact (spend_le_of_entries hmarket htidy henabled hentries hsucceeded).trans hfits
  · exact spend_le_of_none_spared hmarket htidy henabled hentries hsucceeded hnone

end Cycle

/-! ### Where an order is spared -/

section Spared

variable {E : Type} {out : Outside E} {ctx : TradeContext ℚ} {w w₁ : World E} {items : List ItemEntry}
  {existing : List String} {cap : Int} {list : OrderList}

/-- What is selected and an order of value that is spared cost more than the cap. -/
theorem selected_add_lt {i : Weighed ℚ} (hcap : 0 ≤ cap) (hmany : 1 < (extractOrderSummary .exact list .buy).length)
    (hi : i ∈ spared .exact cap existing list) (hvalue : 0 < i.value) :
    cap < weights (selected .exact cap list) + i.weight := by
  rw [spared, if_pos hmany] at hi
  have hleft := List.mem_of_mem_filter hi
  have hfull := knapsack_full hleft hvalue
  have hmem : ∀ j ∈ (knapsack .exact (extractOrderSummary .exact list .buy) cap).1, 0 ≤ j.weight := fun j hj =>
    summary_nonneg ((knapsack_perm .exact _ cap).subset (List.mem_append_left _ hj))
  have hweight : 0 ≤ i.weight := summary_nonneg ((knapsack_perm .exact _ cap).subset (List.mem_append_right _ hleft))
  have hcapacity : i.capacity = i.weight.toNat := rfl
  have hload := load_eq_weights hmem
  rw [selected, if_pos hmany]
  omega

/-- With exact sums, ids that differ and no order due for the sweep, the condition is exact: a lone order above the cap,
and a spared one that its profit would have had selected, put the buy orders above the cap. -/
theorem spared_breaks_cap (hmarket : out.toOrdersOutside.Tagged) (htidy : w.orders.Tidy)
    (henabled : isDisabled ctx.settings.wtb.maxTotalPriceCap = false)
    (hentries : (processEntries .exact out ctx (byPriority items)).exec w = (.ok (false, existing), w₁))
    (hsucceeded : ∀ step ∈ ((processItems .exact out ctx items).exec w).2.trace, step.Succeeded)
    (hids : ((extractOrderSummary PriceFloats.exact w₁.orders.cacheOrders .buy).map Weighed.id).Nodup)
    (hstay : swept out ctx (byPriority items) ((holdCap .exact out ctx existing).exec w₁).2 = [])
    (habove : ctx.settings.wtb.maxTotalPriceCap < spend w₁.orders) {i : Weighed ℚ}
    (hspared : i ∈ spared .exact ctx.settings.wtb.maxTotalPriceCap existing w₁.orders.cacheOrders)
    (hvalue : 1 < w₁.orders.cacheOrders.buyOrders.length → 0 < i.value) :
    ctx.settings.wtb.maxTotalPriceCap < spend ((processItems .exact out ctx items).exec w).2.orders := by
  have hcap : 0 ≤ ctx.settings.wtb.maxTotalPriceCap := by
    have := of_decide_eq_false henabled
    omega
  generalize hlist : w₁.orders.cacheOrders = list at *
  rw [spend_after_cycle hmarket htidy henabled hentries hsucceeded, hstay, hlist]
  simp only [List.not_mem_nil, not_false_eq_true, and_true, decide_true, List.filter_true]
  by_cases hmany : 1 < (extractOrderSummary .exact list .buy).length
  · have hdistinct : ∀ j ∈ selected .exact ctx.settings.wtb.maxTotalPriceCap list,
        j.id ∉ dropped .exact ctx.settings.wtb.maxTotalPriceCap existing list := by
      intro j hj hdropped
      rw [selected, if_pos hmany] at hj
      rw [dropped, if_pos hmany] at hdropped
      obtain ⟨k, hk, hid⟩ := List.mem_map.mp hdropped
      have hperm := (knapsack_perm .exact (extractOrderSummary .exact list .buy)
        ctx.settings.wtb.maxTotalPriceCap).map Weighed.id
      have hnodup := hperm.nodup_iff.mpr hids
      rw [List.map_append] at hnodup
      exact (List.nodup_append.mp hnodup).2.2 _ (List.mem_map_of_mem hj) _
        (List.mem_map_of_mem (List.mem_of_mem_filter hk)) hid.symm
    rw [List.filter_eq_self.mpr fun j hj => decide_eq_true (hdistinct j hj)]
    have hlength : (extractOrderSummary PriceFloats.exact list .buy).length = list.buyOrders.length := List.length_map _
    have hfull := selected_add_lt hcap hmany hspared (hvalue (by omega))
    have hweight : i.weight ≤ weights (spared .exact ctx.settings.wtb.maxTotalPriceCap existing list) := by
      have hone : weights [i] = i.weight := List.sum_singleton
      rw [← hone]
      refine weights_le_of_sublist (List.singleton_sublist.mpr hspared) fun j hj => ?_
      rw [spared, if_pos hmany] at hj
      exact summary_nonneg ((knapsack_perm .exact _ _).subset (List.mem_append_right _ (List.mem_of_mem_filter hj)))
    omega
  · have hall : weights (spared .exact ctx.settings.wtb.maxTotalPriceCap existing list) = spend w₁.orders := by
      rw [spared, if_neg hmany, weights_all, spend, hlist]
    have hnone : weights ((selected .exact ctx.settings.wtb.maxTotalPriceCap list).filter fun j =>
        decide (j.id ∉ dropped .exact ctx.settings.wtb.maxTotalPriceCap existing list)) = 0 := by
      rw [selected, if_neg hmany]
      rfl
    rw [hall, hnone]
    omega

end Spared

/-! ### Two caches -/

def Settings.capped (cap : Int) : Settings := { Settings.plain with wtb := ⟨0, -1, cap, -1, -1, -1⟩ }

/-- A cached bid with its profit. -/
def cachedBid (id wfmId : String) (platinum : Nat) (profit : Int) : Order :=
  { simulatedOrder id ⟨wfmId, .buy, platinum, 1, true, none, none, some ⟨none, some profit, none⟩⟩ with id := id }

def World.caching (bids : List Order) : World Nat := .start (.new (some ⟨.new bids, 100⟩) false) 0

theorem tidy_caching (bids : List Order) (hids : ∀ x ∈ bids, isDry x.id = false) :
    (TradeOrders.new (some ⟨.new bids, 100⟩) false).Tidy := by
  refine ⟨⟨fun client hlive => ?_, OrderList.sided_new []⟩, fun side x hx => ?_, fun _ side x hx => ?_⟩
  · cases hlive
    exact OrderList.sided_new bids
  · have hmem := (OrderList.new_side bids side).subset hx
    exact hids x (List.mem_of_mem_filter hmem)
  · have hnil : x ∈ (OrderList.new []).side side := hx
    rw [TradeOrders.new_nil_side] at hnil
    cases hnil

def cachedPair : World Nat := .caching [cachedBid "1" "lens" 1 5, cachedBid "2" "prism" 10 4]

/-- The bid at 1 is put up to 10: the two cost more than 15, and the other one goes. -/
theorem total_buy_cap_two_bids :
    spend ((processItems PriceFloats.whole (.willing [] .spread) (.sample (.capped 15) true) [.bid "lens"]).exec
      cachedPair).2.orders ≤ 15 := by
  have hentries : (processEntries PriceFloats.whole (.willing [] .spread) (.sample (.capped 15) true)
      (byPriority [.bid "lens"])).exec cachedPair =
      (.ok (false, ["2", "1"]), ((processEntries PriceFloats.whole (.willing [] .spread) (.sample (.capped 15) true)
        (byPriority [.bid "lens"])).exec cachedPair).2) := exec_eq (by decide +kernel)
  have htidy : cachedPair.orders.Tidy := tidy_caching _ (by decide +kernel)
  have henabled : isDisabled (TradeContext.sample (.capped 15) true).settings.wtb.maxTotalPriceCap = false := by
    decide +kernel
  exact total_buy_cap (tagged_willing [] .spread) htidy henabled hentries (.inr (by decide +kernel))
    (by decide +kernel)

/-- A lone bid at 1 is put up to 10, and stays. -/
theorem lone_bid_outgrows_cap :
    ((processEntries PriceFloats.whole (.willing [] .spread) (.sample (.capped 5) true)
      (byPriority [.bid "lens"])).exec (World.caching [cachedBid "1" "lens" 1 5])).1 = .ok (false, ["1"]) ∧
    (∀ step ∈ ((processItems PriceFloats.whole (.willing [] .spread) (.sample (.capped 5) true) [.bid "lens"]).exec
      (World.caching [cachedBid "1" "lens" 1 5])).2.trace, step.Succeeded) ∧
    ¬ spend ((processItems PriceFloats.whole (.willing [] .spread) (.sample (.capped 5) true) [.bid "lens"]).exec
      (World.caching [cachedBid "1" "lens" 1 5])).2.orders ≤ 5 := by
  refine ⟨by decide +kernel, by decide +kernel, by decide +kernel⟩

theorem knapsack_deletes_nothing_profitable :
    ((holdCap PriceFloats.whole (.willing [] .spread) (.sample (.capped 100) true) ["1", "2"]).exec
      (World.caching [cachedBid "1" "lens" 10 19, cachedBid "2" "prism" 10 4])).2.trace = [] :=
  (knapsack_deletes_nothing ["1", "2"] (World.caching [cachedBid "1" "lens" 10 19, cachedBid "2" "prism" 10 4])
    (by decide +kernel) (by decide +kernel)).mpr (by decide +kernel)

/-- A wish-list bid carries no profit: the global knapsack deletes it, though everything fits. -/
theorem wish_list_bid_is_deleted :
    spend (World.caching [cachedBid "1" "lens" 10 19, cachedBid "2" "wish" 10 0]).orders ≤ 100 ∧
    "2" ∈ (World.caching [cachedBid "1" "lens" 10 19, cachedBid "2" "wish" 10 0]).orders.cacheOrders.orderIds .buy ∧
    "2" ∉ ((holdCap PriceFloats.whole (.willing [] .spread) (.sample (.capped 100) true) ["1", "2"]).exec
      (World.caching [cachedBid "1" "lens" 10 19, cachedBid "2" "wish" 10 0])).2.orders.cacheOrders.orderIds
        .buy := by
  refine ⟨by decide +kernel, by decide +kernel, by decide +kernel⟩

end Quantframe.Trader
