import Quantframe.Trader.Moves

/-!
# What each write does

A write of the trader is one write, whether the market takes it or not. Where it fails, the orders may be
read again after it.
-/

namespace Quantframe.Trader

open Lib Lib.Effect Market

def Step.IsRefresh : Step → Prop
  | .write w => w.action = .refresh
  | .lookup .. | .turn _ | .blocked .. => False

section Writes

variable {E : Type} {out : OrdersOutside E} {w : World E} {action : Action}

/-- From one world to another by one write, and what else it may do follows that. -/
structure Wrote (out : OrdersOutside E) (action : Action) (w t : World E) : Prop where
  processing : t.processing = w.processing
  seen : t.orphanFirstSeen = w.orphanFirstSeen
  sweeps : t.sweeps = w.sweeps
  dryRun : t.orders.globalDryRun = w.orders.globalDryRun
  wrote : ∃ sent succeeded after rest, Does out w.orders action sent succeeded after ∧
    t.trace = w.trace ++ .write ⟨action, sent, w.processing, succeeded, after⟩ :: rest ∧
    (∀ step ∈ rest, step.IsRefresh) ∧ (succeeded = true → rest = [] ∧ t.orders = after)

theorem Wrote.asked {e : E} {t : World E} (h : Wrote out action { w with ext := e } t) : Wrote out action w t :=
  ⟨h.processing, h.seen, h.sweeps, h.dryRun, h.wrote⟩

theorem wrote_of_does {sent succeeded : Bool} {after : TradeOrders}
    (hdoes : Does out w.orders action sent succeeded after) :
    Wrote out action w
      { w with
        orders := after
        trace := w.trace ++ [.write ⟨action, sent, w.processing, succeeded, after⟩] } where
  processing := rfl
  seen := rfl
  sweeps := rfl
  dryRun := hdoes.dryRun
  wrote := ⟨sent, succeeded, after, [], hdoes, rfl, (fun _ hstep => by cases hstep), fun _ => ⟨rfl, rfl⟩⟩

theorem refresh_rest (out : OrdersOutside E) (w : World E) :
    (refresh out).wp (fun _ t => t.processing = w.processing ∧ t.orphanFirstSeen = w.orphanFirstSeen ∧
      t.sweeps = w.sweeps ∧ t.orders.globalDryRun = w.orders.globalDryRun ∧
        ∃ rest, t.trace = w.trace ++ rest ∧ ∀ step ∈ rest, step.IsRefresh) w := by
  have hidle : ∃ rest, w.trace = w.trace ++ rest ∧ ∀ step ∈ rest, Step.IsRefresh step :=
    ⟨[], (List.append_nil _).symm, fun step hstep => by cases hstep⟩
  rw [refresh, wp_bind, wp_read, next_ok, wp_ite]
  refine ⟨fun _ => ?_, fun _ => ⟨rfl, rfl, rfl, rfl, hidle⟩⟩
  rw [wp_bind, ask, wp_act, next_ok]
  cases (out.myOrders w.ext).1 with
  | error e => exact ⟨rfl, rfl, rfl, rfl, hidle⟩
  | ok mine => exact ⟨rfl, rfl, rfl, rfl, _, rfl, fun step hstep => by cases List.mem_singleton.mp hstep; rfl⟩

theorem finishLive_error_wrote {α : Type} {sent : Bool} (name verb : String) (e : ApiError)
    (hsent : sent = true → action.goesLive w.orders) :
    (finishLive out action name verb sent (.error e : Except ApiError α) w.orders).wp
      (fun _ t => Wrote out action w t) w := by
  have hfailed : Does out w.orders action sent false _ := .failed action sent hsent
  rw [finishLive, wp_bind, record, wp_change, next_ok, wp_ite]
  refine ⟨fun _ => ?_, fun _ => wrote_of_does hfailed⟩
  have hwrote : ∀ t, (t.processing = w.processing ∧ t.orphanFirstSeen = w.orphanFirstSeen ∧
      t.sweeps = w.sweeps ∧ t.orders.globalDryRun = w.orders.globalDryRun ∧
        ∃ rest, t.trace = w.trace ++ [.write ⟨action, sent, w.processing, false,
          { w.orders with failures := w.orders.failures + 1 }⟩] ++ rest ∧ ∀ step ∈ rest, step.IsRefresh) →
      Wrote out action w t := by
    rintro t ⟨hprocessing, hseen, hsweeps, hdryRun, rest, htrace, hrest⟩
    rw [List.append_assoc] at htrace
    exact ⟨hprocessing, hseen, hsweeps, hdryRun, sent, false, _, rest, hfailed, htrace, hrest, fun hok => by cases hok⟩
  exact wp_seq (refresh_rest out _) (fun _ t ht => hwrote t ht) fun _ t ht => hwrote t ht

theorem liveClient_wrote {β : Type} {f : OrderRoute → TraderM E β}
    (hf : ∀ client, w.orders.live = some client → (f client).wp (fun _ t => Wrote out action w t) w) :
    (liveClient action >>= f).wp (fun _ t => Wrote out action w t) w := by
  rw [wp_bind, liveClient, wp_bind, wp_read, next_ok]
  split
  next client hlive => exact hf client hlive
  next => exact wrote_of_does (.failed action false fun hsent => by cases hsent)

theorem delete_wrote (out : OrdersOutside E) (id : String) (w : World E) :
    (delete out id).wp (fun _ t => Wrote out (.delete id) w t) w := by
  rw [delete, wp_bind, wp_read, next_ok, wp_ite]
  refine ⟨fun hbook => wrote_of_does (.bookDelete hbook), fun hbook => ?_⟩
  have hbook := Bool.eq_false_iff.mpr hbook
  refine liveClient_wrote fun client _ => ?_
  rw [wp_bind, wp_read, next_ok, wp_bind, ask, wp_act, next_ok]
  refine wp_mono (Q := fun _ t => Wrote out (.delete id) { w with ext := (out.delete id w.ext).2 } t) ?_
    fun _ t ht => ht.asked
  cases hdelete : out.delete id w.ext with
  | mk answer e =>
      cases answer with
      | ok deleted => exact wrote_of_does (.liveDelete hbook hdelete)
      | error e' => exact finishLive_error_wrote _ _ e' fun _ => hbook

theorem create_wrote (out : OrdersOutside E) (params : CreateOrderParams) (route : Route) (w : World E) :
    (create out params route).wp (fun _ t => Wrote out (.create params route) w t) w := by
  cases route with
  | dryRun forcedBy =>
      rw [create, wp_bind, ask, wp_act, next_ok]
      exact (wrote_of_does (w := { w with ext := (out.uuid w.ext).2 })
        (.simulatedCreate params forcedBy (out.uuid w.ext).1)).asked
  | live =>
      refine liveClient_wrote fun client _ => ?_
      rw [wp_bind, wp_read, next_ok, wp_ite]
      refine ⟨fun _ => ?_, fun _ => finishLive_error_wrote _ _ _ fun hsent => by cases hsent⟩
      rw [wp_bind, ask, wp_act, next_ok]
      refine wp_mono (Q := fun _ t => Wrote out (.create params .live) { w with ext := (out.create params w.ext).2 } t)
        ?_ fun _ t ht => ht.asked
      cases hcreate : out.create params w.ext with
      | mk answer e =>
          cases answer with
          | ok answered => exact wrote_of_does (.liveCreate params hcreate)
          | error e' => exact finishLive_error_wrote _ _ e' fun _ => rfl

theorem update_wrote (out : OrdersOutside E) (id : String) (params : UpdateOrderParams) (w : World E) :
    (update out id params).wp (fun _ t => Wrote out (.update id params) w t) w := by
  rw [update, wp_bind, wp_read, next_ok, wp_ite]
  refine ⟨fun hbook => ?_, fun hbook => ?_⟩
  · dsimp only
    cases (w.orders.book.update id params).getById id with
    | some order => exact wrote_of_does (.bookUpdate params true hbook)
    | none => exact wrote_of_does (.bookUpdate params false hbook)
  · have hbook := Bool.eq_false_iff.mpr hbook
    refine liveClient_wrote fun client _ => ?_
    rw [wp_bind, wp_read, next_ok, wp_bind, ask, wp_act, next_ok]
    refine wp_mono (Q := fun _ t => Wrote out (.update id params) { w with ext := (out.update id params w.ext).2 } t)
      ?_ fun _ t ht => ht.asked
    cases hupdate : out.update id params w.ext with
    | mk answer e =>
        cases answer with
        | ok answered => exact wrote_of_does (.liveUpdate params hbook)
        | error e' => exact finishLive_error_wrote _ _ e' fun _ => hbook

theorem updateLocal_wrote (out : OrdersOutside E) (id : String) (params : UpdateOrderParams) (w : World E) :
    (updateLocal id params : TraderM E Unit).wp (fun _ t => Wrote out (.updateLocal id params) w t) w := by
  rw [updateLocal, wp_bind, wp_read, next_ok, wp_ite]
  exact ⟨fun hbook => wrote_of_does (.bookLocal params hbook),
    fun hbook => wrote_of_does (.liveLocal params (Bool.eq_false_iff.mpr hbook))⟩

/-- A request that the market refuses does not end well. -/
theorem finishLive_fails {α : Type} (out : OrdersOutside E) (action : Action) (name verb : String) (sent : Bool)
    (e : ApiError) (orders : TradeOrders) (w : World E) :
    (finishLive out action name verb sent (.error e : Except ApiError α) orders).wp (fun r _ => ∀ a, r ≠ .ok a) w := by
  rw [finishLive, wp_bind, record, wp_change, next_ok, wp_ite]
  refine ⟨fun _ => ?_, fun _ _ h => by cases h⟩
  exact wp_seq (I := fun _ => True) trivial (fun _ _ _ _ h => by cases h) fun _ _ _ _ h => by cases h

end Writes

end Quantframe.Trader
