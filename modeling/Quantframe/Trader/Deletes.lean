import Quantframe.Trader.Cached
import Quantframe.Trader.Cycles
import Quantframe.Trader.Writes

/-!
# Deletes

A delete leaves its mark in the trace, whether the market takes it or not. Where it succeeds, the orders of
that id are cached no more and the others are.
-/

namespace Quantframe.Trader

open Lib Lib.Effect Market

/-- The id of a simulated order. -/
def isDry (id : String) : Bool := "dry-".toList.isPrefixOf id.toList

/-- What the trader relies on of the market's answers: a delete answers with the order that was deleted, and
its own ids do not look like those of simulated orders. -/
structure OrdersOutside.Tagged {E : Type} (out : OrdersOutside E) : Prop where
  create : ∀ params e o e', out.create params e = (.ok o, e') → isDry o.id = false
  delete : ∀ id e o e', out.delete id e = (.ok o, e') → o.id = id

/-- The client's orders and the simulated ones share no id. -/
structure TradeOrders.Tidy (o : TradeOrders) : Prop where
  sided : o.Sided
  real : ∀ side, ∀ x ∈ o.real.side side, isDry x.id = false
  book : o.globalDryRun = false → ∀ side, ∀ x ∈ o.book.side side, isDry x.id = true

def Step.Succeeded : Step → Prop
  | .lookup .. | .turn _ | .blocked .. => True
  | .write w => w.succeeded = true

instance : DecidablePred Step.Succeeded
  | .lookup .. | .turn _ | .blocked .. => isTrue trivial
  | .write w => inferInstanceAs (Decidable (w.succeeded = true))

section Writes

variable {E : Type} {out : OrdersOutside E} {o after : TradeOrders} {action : Action} {sent succeeded : Bool}

theorem Does.sided (h : Does out o action sent succeeded after) (hsided : o.Sided) : after.Sided := by
  have hlive {f : OrderList → OrderList} (hf : ∀ l : OrderList, l.Sided → (f l).Sided) :
      (o.mapLive f).Sided := hsided.mapLive hf
  have hbook {l : OrderList} (hl : l.Sided) : ({ o with book := l } : TradeOrders).Sided := ⟨hsided.live, hl⟩
  cases h with
  | simulatedCreate => exact hbook (hsided.book.add _)
  | liveCreate => exact ⟨(hlive fun l hl => hl.add _).live, hsided.book⟩
  | bookUpdate => exact hbook (hsided.book.update _ _)
  | liveUpdate => exact ⟨(hlive fun l hl => hl.update _ _).live, hsided.book⟩
  | bookLocal => exact hbook (hsided.book.update _ _)
  | liveLocal => exact hlive fun l hl => hl.update _ _
  | bookDelete => exact hbook (hsided.book.removeById _)
  | liveDelete => exact ⟨(hlive fun l hl => hl.removeById _).live, hsided.book⟩
  | failed => exact ⟨hsided.live, hsided.book⟩
  | refresh => exact hlive fun l _ => OrderList.sided_new _

theorem isDry_simulatedOrder (id : String) (params : CreateOrderParams) :
    isDry (simulatedOrder id params).id = true := by
  rw [isDry, simulatedOrder, String.toList_append, List.isPrefixOf_iff_prefix]
  exact List.prefix_append _ _

theorem update_ids {p : Bool} {l : OrderList} {side : OrderType} (h : ∀ x ∈ l.side side, isDry x.id = p)
    (id : String) (args : UpdateOrderParams) : ∀ x ∈ (l.update id args).side side, isDry x.id = p := by
  intro x hx
  have hids : ((l.update id args).side side).map Order.id = (l.side side).map Order.id :=
    OrderList.update_map (fun _ => rfl) l id side
  have hmem : x.id ∈ ((l.update id args).side side).map Order.id := List.mem_map_of_mem hx
  rw [hids] at hmem
  obtain ⟨y, hy, heq⟩ := List.mem_map.mp hmem
  rw [← heq]
  exact h y hy

theorem add_ids {p : Bool} {l : OrderList} {side : OrderType} (h : ∀ x ∈ l.side side, isDry x.id = p)
    {order : Order} (horder : isDry order.id = p) : ∀ x ∈ (l.add order).side side, isDry x.id = p := by
  intro x hx
  rw [OrderList.add_side, List.mem_append] at hx
  rcases hx with hold | hnew
  · exact h x hold
  · split at hnew
    next =>
      cases List.mem_singleton.mp hnew
      exact horder
    next => cases hnew

theorem removeById_ids {p : Bool} {l : OrderList} {side : OrderType} (h : ∀ x ∈ l.side side, isDry x.id = p)
    (id : String) : ∀ x ∈ (l.removeById id).side side, isDry x.id = p := by
  intro x hx
  rw [OrderList.removeById_side] at hx
  exact h x (List.mem_of_mem_filter hx)

theorem TradeOrders.Tidy.mapLive (h : o.Tidy) {f : OrderList → OrderList}
    (hsided : ∀ l : OrderList, l.Sided → (f l).Sided)
    (hids : ∀ (l : OrderList) side, (∀ x ∈ l.side side, isDry x.id = false) →
      ∀ x ∈ (f l).side side, isDry x.id = false) (failures : Nat) :
    ({ o.mapLive f with failures := failures } : TradeOrders).Tidy := by
  refine ⟨⟨(h.sided.mapLive hsided).live, h.sided.book⟩, fun side => ?_, h.book⟩
  rcases o.real_mapLive f with hreal | hreal
  · change ∀ x ∈ (o.mapLive f).real.side side, _
    rw [hreal]
    exact hids _ side (h.real side)
  · change ∀ x ∈ (o.mapLive f).real.side side, _
    rw [hreal]
    exact h.real side

theorem TradeOrders.Tidy.withBook (h : o.Tidy) {book : OrderList} (hsided : book.Sided)
    (hids : o.globalDryRun = false → ∀ side, ∀ x ∈ book.side side, isDry x.id = true) :
    ({ o with book := book } : TradeOrders).Tidy := ⟨⟨h.sided.live, hsided⟩, h.real, hids⟩

theorem Does.tidy (h : Does out o action sent true after) (htidy : o.Tidy) (hmarket : out.Tagged)
    (hrefresh : action ≠ .refresh) : after.Tidy := by
  have hbook := htidy.sided.book
  cases h with
  | simulatedCreate params forcedBy id =>
      exact htidy.withBook (hbook.add _) fun hg side =>
        add_ids (htidy.book hg side) (isDry_simulatedOrder id params)
  | @liveCreate params e e' answered hanswer =>
      have hid : isDry ({ answered with properties := params.properties.getD .default } : Order).id = false :=
        hmarket.create _ _ answered _ hanswer
      exact htidy.mapLive (fun l hl => hl.add _) (fun l side hl => add_ids hl hid) 0
  | bookUpdate params =>
      exact htidy.withBook (hbook.update _ _) fun hg side => update_ids (htidy.book hg side) _ _
  | liveUpdate params =>
      exact htidy.mapLive (fun l hl => hl.update _ _) (fun l side hl => update_ids hl _ _) 0
  | bookLocal params =>
      exact htidy.withBook (hbook.update _ _) fun hg side => update_ids (htidy.book hg side) _ _
  | liveLocal params =>
      exact htidy.mapLive (fun l hl => hl.update _ _) (fun l side hl => update_ids hl _ _)
        o.failures
  | bookDelete =>
      exact htidy.withBook (hbook.removeById _) fun hg side => removeById_ids (htidy.book hg side) _
  | liveDelete =>
      exact htidy.mapLive (fun l hl => hl.removeById _) (fun l side hl => removeById_ids hl _) 0
  | refresh => exact absurd rfl hrefresh

/-- A delete that succeeds removes the orders of its id, and no others. -/
theorem Does.deleted {id : String} (h : Does out o (.delete id) sent true after) (htidy : o.Tidy)
    (hmarket : out.Tagged) (side : OrderType) :
    (after.cacheOrders.side side).Perm ((o.cacheOrders.side side).filter fun x => x.id ≠ id) := by
  have hafter := TradeOrders.cacheOrders_side (h.tidy htidy hmarket nofun).sided side
  have hbefore := (TradeOrders.cacheOrders_side htidy.sided side).filter fun x => decide (x.id ≠ id)
  rw [List.filter_append] at hbefore
  refine hafter.trans (List.Perm.trans ?_ hbefore.symm)
  have hall {orders : List Order} (hne : ∀ x ∈ orders, x.id ≠ id) :
      orders.filter (fun x => decide (x.id ≠ id)) = orders :=
    List.filter_eq_self.mpr fun x hx => decide_eq_true (hne x hx)
  cases h with
  | bookDelete hbook =>
      have hreal : ∀ x ∈ o.real.side side, x.id ≠ id := by
        rintro x hx rfl
        rcases o.real_eq with ⟨client, -, hdryRun, -, -⟩ | ⟨hempty, -⟩
        · rw [TradeOrders.inBook, hdryRun, Bool.false_or, OrderList.getById, List.find?_isSome] at hbook
          obtain ⟨y, hy, heq⟩ := hbook
          have hdry := htidy.book hdryRun
          have hy' : isDry y.id = true := (OrderList.mem_toVec.mp hy).elim (hdry _ y) (hdry _ y)
          rw [of_decide_eq_true heq, htidy.real side x hx] at hy'
          cases hy'
        · rw [hempty, TradeOrders.new_nil_side] at hx
          cases hx
      rw [hall hreal, ← OrderList.removeById_side o.book]
      exact .refl _
  | liveDelete hbook hanswer =>
      rw [hmarket.delete _ _ _ _ hanswer]
      have hbookIds : ∀ x ∈ o.book.side side, x.id ≠ id := by
        rintro x hx rfl
        obtain ⟨-, hmissing⟩ := Bool.or_eq_false_iff.mp hbook
        have hmem : x ∈ o.book.toVec := by
          cases side with
          | sell => exact List.mem_append_left _ hx
          | buy => exact List.mem_append_right _ hx
        rw [OrderList.getById, Option.isSome_eq_false_iff, Option.isNone_iff_eq_none,
          List.find?_eq_none] at hmissing
        exact hmissing x hmem (decide_eq_true rfl)
      have hdryRun : o.globalDryRun = false := (Bool.or_eq_false_iff.mp hbook).1
      rw [hall hbookIds]
      refine List.Perm.append_right _ ?_
      rw [← OrderList.removeById_side o.real]
      change ((o.mapLive fun list => list.removeById id).real.side side).Perm _
      rw [TradeOrders.real, TradeOrders.real, TradeOrders.mapLive, hdryRun]
      cases o.live with
      | some client => exact .refl _
      | none =>
          dsimp only [Option.map_none]
          rw [OrderList.removeById_side, TradeOrders.new_nil_side]
          exact .refl _

/-! ### The programs -/

theorem trace_of_moves {d d' : Desk} (h : Moves out d d') : d.trace <+: d'.trace := by
  induction h with
  | refl => exact List.prefix_rfl
  | tail _ hmove ih =>
      refine ih.trans ?_
      cases hmove with
      | turn => exact List.prefix_rfl
      | sweep => exact List.prefix_rfl
      | turnTo => exact List.prefix_append _ _
      | blocked => exact List.prefix_append _ _
      | look => exact List.prefix_append _ _
      | write => exact List.prefix_append _ _

/-- While no write fails, the ids stay apart. -/
theorem tidy_of_moves {d d' : Desk} (hmarket : out.Tagged) (h : Moves out d d') (htidy : d.orders.Tidy)
    (hsucceeded : ∀ step ∈ d'.trace, step.Succeeded) : d'.orders.Tidy := by
  induction h with
  | refl => exact htidy
  | @tail m d'' hmoves hmove ih =>
      have hbefore := trace_of_moves (.single hmove)
      have hm := ih fun step hstep => hsucceeded step (hbefore.subset hstep)
      cases hmove with
      | turn => exact hm
      | sweep => exact hm
      | turnTo => exact hm
      | blocked => exact hm
      | look => exact hm
      | @write action sent succeeded after hallow hdoes =>
          have hwrite : succeeded = true := hsucceeded _ List.mem_concat_self
          subst hwrite
          refine hdoes.tidy hm hmarket ?_
          rintro rfl
          obtain ⟨write, hmem, hfailed⟩ := hallow
          have : write.succeeded = true := hsucceeded _ (hbefore.subset hmem)
          rw [hfailed] at this
          cases this

end Writes

section Deletes

variable {E F : Type} {out : OrdersOutside E} {w : World E}

/-- A delete writes once, and what else it may do follows that. -/
structure Deleting (out : OrdersOutside E) (id : String) (w t : World E) : Prop where
  seen : t.orphanFirstSeen = w.orphanFirstSeen
  wrote : ∃ sent succeeded after, Does out w.orders (.delete id) sent succeeded after ∧
    w.trace ++ [.write ⟨.delete id, sent, w.processing, succeeded, after⟩] <+: t.trace ∧
    (succeeded = true → t.orders = after)

theorem delete_deleting (id : String) : (delete out id).wp (fun _ t => Deleting out id w t) w := by
  refine wp_mono (delete_wrote out id w) fun _ t h => ⟨h.seen, ?_⟩
  obtain ⟨sent, succeeded, after, rest, hdoes, htrace, -, hdone⟩ := h.wrote
  refine ⟨sent, succeeded, after, hdoes, ⟨rest, ?_⟩, fun hsucceeded => (hdone hsucceeded).2⟩
  rw [htrace, List.append_assoc, List.singleton_append]

/-- From one world to another by deletes of these ids: where each write succeeds, the orders of these ids
are cached no more. -/
structure Deleted (ids : List String) (w t : World E) : Prop where
  seen : t.orphanFirstSeen = w.orphanFirstSeen
  trace : w.trace <+: t.trace
  orders : (∀ step ∈ t.trace, step.Succeeded) → w.orders.Tidy → t.orders.Tidy ∧
    ∀ side, (t.orders.cacheOrders.side side).Perm
      ((w.orders.cacheOrders.side side).filter fun x => x.id ∉ ids)

theorem Deleted.refl (w : World E) : Deleted [] w w where
  seen := rfl
  trace := List.prefix_rfl
  orders _ htidy := by
    refine ⟨htidy, fun side => ?_⟩
    rw [List.filter_eq_self.mpr fun x _ => decide_eq_true List.not_mem_nil]

theorem Deleted.trans {ids ids' : List String} {w t u : World E} (h : Deleted ids w t) (h' : Deleted ids' t u) :
    Deleted (ids ++ ids') w u where
  seen := h'.seen.trans h.seen
  trace := h.trace.trans h'.trace
  orders hsucceeded htidy := by
    obtain ⟨htidy', hside⟩ := h.orders (fun step hstep => hsucceeded step (h'.trace.subset hstep)) htidy
    obtain ⟨htidy'', hside'⟩ := h'.orders hsucceeded htidy'
    refine ⟨htidy'', fun side => (hside' side).trans ?_⟩
    refine ((hside side).filter _).trans ?_
    rw [List.filter_filter]
    refine List.Perm.of_eq (List.filter_congr fun x _ => ?_)
    simp [List.mem_append, Bool.and_comm]

theorem Deleting.deleted (hmarket : out.Tagged) {id : String} {w t : World E} (h : Deleting out id w t) :
    Deleted [id] w t where
  seen := h.seen
  trace := by
    obtain ⟨_, _, _, -, htrace, -⟩ := h.wrote
    exact (List.prefix_append _ _).trans htrace
  orders hsucceeded htidy := by
    obtain ⟨sent, succeeded, after, hdoes, htrace, horders⟩ := h.wrote
    have hwrite : succeeded = true := hsucceeded _ (htrace.subset List.mem_concat_self)
    subst hwrite
    rw [horders rfl]
    refine ⟨hdoes.tidy htidy hmarket nofun, fun side => ?_⟩
    refine (hdoes.deleted htidy hmarket side).trans (List.Perm.of_eq (List.filter_congr fun x _ => ?_))
    simp only [List.mem_singleton, ne_eq]

variable {out : Outside E}

theorem tryDelete_deleting (id : String) :
    (tryDelete out id).wp (fun r t => r = .ok () ∧ Deleting out.toOrdersOutside id w t) w := by
  rw [tryDelete, wp_bind, wp_attempt]
  exact wp_mono (delete_deleting id) fun _ _ ht => ⟨rfl, ht⟩

/-- The deletes of a list, where some are passed over. -/
theorem each_deleted {α : Type} {l : List α} {f : α → TraderM E Unit} (ids : α → List String)
    (hf : ∀ a ∈ l, ∀ s, (f a).wp (fun r t => r = .ok () ∧ Deleted (ids a) s t) s) (w : World E) :
    (each l f).wp (fun r t => r = .ok () ∧ Deleted (l.flatMap ids) w t) w := by
  refine wp_each (R := fun l s t => Deleted (l.flatMap ids) s t) .refl (fun a l s t u h h' => ?_) (fun a ha s => ?_) w
  · rw [List.flatMap_singleton] at h
    rw [List.flatMap_cons]
    exact h.trans h'
  · rw [List.flatMap_singleton]
    exact hf a ha s

end Deletes

theorem tagged_willing (entries : List ItemEntry) (book : LiveOrders) :
    (Outside.willing entries book).toOrdersOutside.Tagged := by
  refine ⟨fun params e o e' hcreate => ?_, fun id e o e' hdelete => ?_⟩
  · cases hcreate
    rw [isDry, String.toList_append]
    rfl
  · cases hdelete
    rfl

end Quantframe.Trader
