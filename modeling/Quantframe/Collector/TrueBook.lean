import Mathlib.Algebra.BigOperators.Group.List.Basic
import Quantframe.Collector.Mirror

/-!
# True quantities and partial vanishes

A book fetched at a time shows the quantities of that time. A record whose book is no older than the
last one adds no more partial vanishes than the quantities went down in between.
-/

namespace Quantframe.Collector

open Lib

/-! ### The true quantities -/

structure QuantityEdit where
  editedAt : Int
  orderId : String
  quantity : Int
  deriving DecidableEq, Repr

/-- The quantity of each order at the market, over time. -/
structure TrueBook where
  opening : String → Int
  edits : List QuantityEdit
  inOrder : edits.Pairwise fun e e' => e.editedAt ≤ e'.editedAt

/-- The total of the decreases of a quantity that takes these values one after the other. -/
def decreases (quantity : Int) : List Int → Int
  | [] => 0
  | next :: later => max (quantity - next) 0 + decreases next later

theorem decreases_append (quantity : Int) (values later : List Int) :
    decreases quantity (values ++ later) =
      decreases quantity values + decreases (values.getLastD quantity) later := by
  induction values generalizing quantity with
  | nil => simp [decreases]
  | cons next values ih =>
      rw [List.cons_append, decreases, decreases, ih, List.getLastD_cons, add_assoc]

theorem decreases_nonneg (quantity : Int) (values : List Int) : 0 ≤ decreases quantity values := by
  induction values generalizing quantity with
  | nil => exact le_refl _
  | cons next values ih =>
      have hrest := ih next
      have hfirst := le_max_right (quantity - next) 0
      rw [decreases]
      omega

theorem sub_last_le_decreases (quantity : Int) (values : List Int) :
    quantity - values.getLastD quantity ≤ decreases quantity values := by
  induction values generalizing quantity with
  | nil => simp [decreases]
  | cons next values ih =>
      have hrest := ih next
      have hfirst := le_max_left (quantity - next) 0
      rw [List.getLastD_cons, decreases]
      omega

namespace TrueBook

variable (book : TrueBook)

/-- The quantities an order was set to, up to a time. -/
def values (id : String) (t : Int) : List Int :=
  (book.edits.filter fun e => e.editedAt ≤ t ∧ e.orderId = id).map QuantityEdit.quantity

def quantityAt (id : String) (t : Int) : Int := (book.values id t).getLastD (book.opening id)

/-- The total of the decreases of an order's quantity up to a time. -/
def decreased (id : String) (t : Int) : Int := decreases (book.opening id) (book.values id t)

/-- A book fetched at a time: one row an order, with its quantity then. -/
structure Shows (orders : List V2Order) (t : Int) : Prop where
  distinct : (orders.map V2Order.id).Nodup
  quantities : ∀ o ∈ orders, o.quantity = book.quantityAt o.id t

variable {book}

theorem values_later (id : String) {t t' : Int} (h : t ≤ t') :
    ∃ later, book.values id t' = book.values id t ++ later := by
  have hprefix : ∀ edits : List QuantityEdit,
      (edits.Pairwise fun e e' => e.editedAt ≤ e'.editedAt) →
      ∃ later, (edits.filter fun e => e.editedAt ≤ t' ∧ e.orderId = id) =
        (edits.filter fun e => e.editedAt ≤ t ∧ e.orderId = id) ++ later := by
    intro edits hsorted
    induction edits with
    | nil => exact ⟨[], rfl⟩
    | cons e edits ih =>
        rw [List.pairwise_cons] at hsorted
        by_cases he : e.editedAt ≤ t
        · obtain ⟨later, hlater⟩ := ih hsorted.2
          refine ⟨later, ?_⟩
          by_cases hid : e.orderId = id
          · rw [List.filter_cons_of_pos (by simp [hid, he.trans h]),
              List.filter_cons_of_pos (by simp [hid, he]), hlater, List.cons_append]
          · rw [List.filter_cons_of_neg (by simp [hid]), List.filter_cons_of_neg (by simp [hid]), hlater]
        · have hnone : ((e :: edits).filter fun e => e.editedAt ≤ t ∧ e.orderId = id) = [] := by
            rw [List.filter_eq_nil_iff]
            intro e' he'
            have hlate : t < e'.editedAt := by
              rcases List.mem_cons.mp he' with rfl | he'
              · exact not_le.mp he
              · exact lt_of_lt_of_le (not_le.mp he) (hsorted.1 e' he')
            simp [not_le.mpr hlate]
          exact ⟨_, by rw [hnone, List.nil_append]⟩
  obtain ⟨later, hlater⟩ := hprefix book.edits book.inOrder
  exact ⟨later.map QuantityEdit.quantity, by rw [values, hlater, List.map_append, values]⟩

theorem decreased_mono (id : String) {t t' : Int} (h : t ≤ t') :
    book.decreased id t ≤ book.decreased id t' := by
  obtain ⟨later, hlater⟩ := book.values_later id h
  have hmore := decreases_nonneg ((book.values id t).getLastD (book.opening id)) later
  rw [decreased, decreased, hlater, decreases_append]
  omega

theorem decreased_nonneg (id : String) (t : Int) : 0 ≤ book.decreased id t := decreases_nonneg _ _

/-- What is missing between two times is part of the decreases between them. -/
theorem drop_le_decreased (id : String) {t t' : Int} (h : t ≤ t') :
    max (book.quantityAt id t - book.quantityAt id t') 0 ≤
      book.decreased id t' - book.decreased id t := by
  obtain ⟨later, hlater⟩ := book.values_later id h
  have hdrop := sub_last_le_decreases (book.quantityAt id t) later
  have hnonneg := decreases_nonneg (book.quantityAt id t) later
  have hlast : book.quantityAt id t' = later.getLastD (book.quantityAt id t) := by
    rw [quantityAt, hlater, quantityAt]
    cases later using List.reverseRecOn with
    | nil => simp
    | append_singleton later x => simp [← List.append_assoc]
  rw [decreased, decreased, hlater, decreases_append, hlast, ← quantityAt]
  omega

end TrueBook

/-! ### What one record adds to the partial vanishes of an order -/

section Partials

variable (itemId id : String)

/-- The quantities of the partial vanishes recorded for an order. -/
def partialSum (rows : List VanishedRow) : Int :=
  ((rows.filter fun r => r.itemId = itemId ∧ r.order.orderId = id ∧ r.kind = "partial").map
    VanishedRow.quantity).sum

def drops (changed : List Changed) : Int :=
  ((changed.filter fun c => c.before.orderId = id).map Changed.quantityDrop).sum

theorem partialSum_append (rows rows' : List VanishedRow) :
    partialSum itemId id (rows ++ rows') = partialSum itemId id rows + partialSum itemId id rows' := by
  rw [partialSum, List.filter_append, List.map_append, List.sum_append, partialSum, partialSum]

theorem drops_append (changed changed' : List Changed) :
    drops id (changed ++ changed') = drops id changed + drops id changed' := by
  rw [drops, List.filter_append, List.map_append, List.sum_append, drops, drops]

theorem drops_eq_zero {changed : List Changed} (h : ∀ c ∈ changed, c.before.orderId ≠ id) :
    drops id changed = 0 := by
  rw [drops, List.filter_eq_nil_iff.mpr fun c hc => by simp [h c hc], List.map_nil, List.sum_nil]

theorem partialSum_vanishRows (sweptAt status : String) (gap : Option Int) (diff : OrderDiff) :
    partialSum itemId id (vanishRows itemId sweptAt gap status diff) = drops id diff.changed := by
  have hfull : partialSum itemId id (diff.vanished.map fun o =>
      ⟨itemId, o, o.quantity, sweptAt, gap, "full", status⟩) = 0 := by
    rw [partialSum, List.filter_eq_nil_iff.mpr, List.map_nil, List.sum_nil]
    intro row hrow
    obtain ⟨o, _, rfl⟩ := List.mem_map.mp hrow
    simp
  rw [vanishRows, partialSum_append, hfull, zero_add]
  induction diff.changed with
  | nil => rfl
  | cons c changed ih =>
      have hsplit := drops_append id [c] changed
      rw [List.singleton_append] at hsplit
      rw [hsplit, ← ih]
      by_cases hdrop : 0 < c.quantityDrop
      · rw [List.filter_cons_of_pos (by simpa using hdrop), List.map_cons]
        have hrow := partialSum_append itemId id
          [⟨itemId, c.before, c.quantityDrop, sweptAt, gap, "partial", "trade"⟩]
        rw [← List.singleton_append, hrow]
        congr 1
        by_cases hid : c.before.orderId = id
        · simp [partialSum, drops, hid]
        · simp [partialSum, drops, hid]
      · rw [List.filter_cons_of_neg (by simpa using hdrop)]
        have hzero : c.quantityDrop = 0 :=
          le_antisymm (not_lt.mp hdrop) (le_max_right _ _)
        have hnone : drops id [c] = 0 := by
          by_cases hid : c.before.orderId = id
          · simp [drops, hid, hzero]
          · simp [drops, hid]
        rw [hnone, zero_add]

variable {id}

/-- Of distinct orders at most one is a change of the order. -/
theorem drops_diffOrders_le {previous current : List SeenOrder}
    (hdistinct : (current.map SeenOrder.orderId).Nodup) {most : Int} (hnonneg : 0 ≤ most)
    (hmost : ∀ o ∈ current, o.orderId = id → ∀ prev, before previous id = some prev →
      max (prev.quantity - o.quantity) 0 ≤ most) :
    drops id (diffOrders previous current).changed ≤ most := by
  have hother : ∀ l : List SeenOrder, (∀ o ∈ l, o.orderId ≠ id) →
      drops id (l.filterMap fun o => (before previous o.orderId).bind fun prev => change prev o) = 0 := by
    intro l hl
    refine drops_eq_zero id ?_
    intro c hc
    obtain ⟨o, ho, hchange⟩ := List.mem_filterMap.mp hc
    obtain ⟨prev, hprev, hc'⟩ := Option.bind_eq_some_iff.mp hchange
    rw [(change_eq_some hc').1, (before_some hprev).2]
    exact hl o ho
  rw [diffOrders]
  by_cases hid : id ∈ current.map SeenOrder.orderId
  · obtain ⟨o, ho, hoid⟩ := List.mem_map.mp hid
    obtain ⟨l₁, l₂, rfl⟩ := List.append_of_mem ho
    rw [List.map_append, List.map_cons, hoid, List.nodup_middle, List.nodup_cons, List.mem_append,
      not_or] at hdistinct
    have h₁ := hother l₁ fun o' ho' hid' => hdistinct.1.1 (hid' ▸ List.mem_map_of_mem ho')
    have h₂ := hother l₂ fun o' ho' hid' => hdistinct.1.2 (hid' ▸ List.mem_map_of_mem ho')
    rw [← List.singleton_append, List.filterMap_append, List.filterMap_append, drops_append,
      drops_append, h₁, h₂, zero_add, add_zero]
    cases hchange : (before previous o.orderId).bind fun prev => change prev o with
    | none =>
        simp only [List.filterMap_cons, hchange]
        exact hnonneg
    | some c =>
        simp only [List.filterMap_cons, hchange, List.filterMap_nil]
        obtain ⟨prev, hprev, hc⟩ := Option.bind_eq_some_iff.mp hchange
        obtain ⟨hbefore, hafter⟩ := change_eq_some hc
        rw [hoid] at hprev
        have hle := hmost o ho hoid prev hprev
        have hprevid : prev.orderId = id := (before_some hprev).2
        have hdrop : c.quantityDrop = max (prev.quantity - o.quantity) 0 := by
          rw [Changed.quantityDrop, hbefore, hafter]
        simpa [drops, hbefore, hprevid, hdrop] using hle
  · rw [hother current fun o ho hoid => hid (hoid ▸ List.mem_map_of_mem ho)]
    exact hnonneg

end Partials

/-! ### The live set after a record -/

/-- The rows of the item show the quantities of the book recorded last, and its partial vanishes are
covered by the decreases up to that book. -/
structure Follows (market : TrueBook) (itemId : String) (db : Tables) (last : Option Int) : Prop where
  held : ∀ id row, Holds db.lastSeenOrders itemId id row →
    ∃ t, last = some t ∧ row.order.quantity = market.quantityAt id t
  sums : ∀ id, partialSum itemId id db.vanishedOrders ≤ (last.map (market.decreased id)).getD 0

theorem Follows.of_eq {market : TrueBook} {itemId : String} {db db' : Tables} {last : Option Int}
    (h : Follows market itemId db last) (hseen : db'.lastSeenOrders = db.lastSeenOrders)
    (hvanished : db'.vanishedOrders = db.vanishedOrders) : Follows market itemId db' last where
  held := by
    rw [hseen]
    exact h.held
  sums := by
    rw [hvanished]
    exact h.sums

/-- The step lemma: a book that is no older than the one recorded before it. -/
theorem Follows.applySweep {market : TrueBook} {clock : Clock} {db : Tables} {input : SweepInput}
    {last : Option Int} {t : Int} (h : Follows market input.itemId db last)
    (hshows : market.Shows input.orders t) (hlater : ∀ t', last = some t' → t' ≤ t) :
    Follows market input.itemId (applySweep clock db input).1 (some t) where
  held id row hrow := by
    refine ⟨t, rfl, ?_⟩
    obtain ⟨o, hlisting, ⟨_, rfl⟩ | ⟨prev, hprev, _⟩⟩ := patched_cases (clock.ts input.sweptAt) hrow
    · obtain ⟨ho, _, hid⟩ := SweepInput.listing_mem hlisting
      rw [← hid]
      exact hshows.quantities o ho
    · obtain ⟨ho, hv, hid⟩ := SweepInput.listing_mem hlisting
      subst hid
      have hprice := patched_price (clock.ts input.sweptAt) hprev hshows.distinct ho hv hrow.1
      rw [hprice.2]
      exact hshows.quantities o ho
  sums id := by
    change partialSum input.itemId id (db.vanishedOrders ++ vanishRows input.itemId _ _ _ _) ≤ _
    rw [partialSum_append, partialSum_vanishRows, Option.map_some, Option.getD_some]
    have hsum := h.sums id
    cases last with
    | none =>
        have hempty : ∀ prev, before (db.liveSet input.itemId) id ≠ some prev := by
          intro prev hprev
          obtain ⟨row, hrow, _⟩ := before_eq_some.mp hprev
          obtain ⟨t', ht', _⟩ := h.held id row hrow
          cases ht'
        have hnone := @drops_diffOrders_le id (db.liveSet input.itemId)
          (toSeen input.orders (clock.ts input.sweptAt)) (toSeen_distinct hshows.distinct) 0 (le_refl _)
          (fun _ _ _ prev hprev => absurd hprev (hempty prev))
        have hnonneg := market.decreased_nonneg id t
        simp only [Option.map_none, Option.getD_none] at hsum
        omega
    | some t' =>
        have ht := hlater t' rfl
        have hmost := @drops_diffOrders_le id (db.liveSet input.itemId)
          (toSeen input.orders (clock.ts input.sweptAt)) (toSeen_distinct hshows.distinct)
          (market.decreased id t - market.decreased id t')
          (by have := market.decreased_mono id ht; omega) ?_
        · simp only [Option.map_some, Option.getD_some] at hsum
          omega
        · intro o ho hoid prev hprev
          obtain ⟨row, hrow, rfl⟩ := before_eq_some.mp hprev
          obtain ⟨t'', ht'', hquantity⟩ := h.held id row hrow
          cases ht''
          obtain ⟨x, hx, _, rfl⟩ := mem_toSeen.mp ho
          have hxid : x.id = id := hoid
          have hnow := hshows.quantities x hx
          rw [hxid] at hnow
          rw [hquantity, show (x.toSeen (clock.ts input.sweptAt)).quantity = x.quantity from rfl, hnow]
          exact market.drop_le_decreased id ht

end Quantframe.Collector
