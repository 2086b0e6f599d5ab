import Mathlib.Data.List.Induction
import Quantframe.Collector.Store

/-!
# The live set against the book

The live set is patched, never rewritten: an order keeps the row it was inserted with for as long
as no sweep misses it, and only its price and quantity follow the book.
-/

namespace Quantframe.Collector

open Lib

namespace SweepInput

/-- The order a book shows under an id; of several visible ones the last. -/
def listing (s : SweepInput) (id : String) : Option V2Order :=
  (s.orders.filter V2Order.visible).reverse.find? fun o => o.id = id

def shows (s : SweepInput) (id : String) : Bool := (s.listing id).isSome

theorem listing_mem {s : SweepInput} {id : String} {o : V2Order} (h : s.listing id = some o) :
    o ∈ s.orders ∧ o.visible = true ∧ o.id = id := by
  have hid := List.find?_some h
  rw [decide_eq_true_eq] at hid
  have hmem := List.mem_reverse.mp (List.mem_of_find?_eq_some h)
  rw [List.mem_filter] at hmem
  exact ⟨hmem.1, hmem.2, hid⟩

theorem shows_of_mem {s : SweepInput} {o : V2Order} (h : o ∈ s.orders) (hv : o.visible = true) :
    s.shows o.id = true := by
  rw [shows, listing, List.find?_isSome]
  refine ⟨o, List.mem_reverse.mpr (List.mem_filter.mpr ⟨h, hv⟩), ?_⟩
  exact decide_eq_true rfl

theorem listing_of_distinct {s : SweepInput} (hdistinct : (s.orders.map V2Order.id).Nodup)
    {o : V2Order} (h : o ∈ s.orders) (hv : o.visible = true) : s.listing o.id = some o := by
  obtain ⟨o', ho'⟩ := Option.isSome_iff_exists.mp (shows_of_mem h hv)
  obtain ⟨hmem, _, hid⟩ := listing_mem ho'
  rw [ho', List.inj_on_of_nodup_map hdistinct hmem h hid]

theorem find_toSeen (s : SweepInput) (sweptAt id : String) :
    (toSeen s.orders sweptAt).reverse.find? (fun r => r.orderId = id) =
      (s.listing id).map fun o => o.toSeen sweptAt := by
  rw [toSeen, ← List.map_reverse, List.find?_map]
  rfl

theorem mem_ids_toSeen {s : SweepInput} {sweptAt id : String} :
    id ∈ (toSeen s.orders sweptAt).map SeenOrder.orderId ↔ s.shows id = true := by
  constructor
  · intro h
    obtain ⟨row, hrow, hid⟩ := List.mem_map.mp h
    obtain ⟨o, ho, hv, hseen⟩ := mem_toSeen.mp hrow
    subst hseen
    subst hid
    exact shows_of_mem ho hv
  · intro h
    obtain ⟨o, ho⟩ := Option.isSome_iff_exists.mp h
    obtain ⟨hmem, hv, hid⟩ := listing_mem ho
    exact List.mem_map.mpr ⟨_, mem_toSeen.mpr ⟨o, hmem, hv, rfl⟩, hid⟩

end SweepInput

/-- The unbroken run of sweeps, up to the last one, that show an order id. -/
def run (sweeps : List SweepInput) (id : String) : List SweepInput :=
  (sweeps.reverse.takeWhile fun s => s.shows id).reverse

def firstOfRun (sweeps : List SweepInput) (id : String) : Option SweepInput := (run sweeps id).head?

theorem firstOfRun_snoc (sweeps : List SweepInput) (s : SweepInput) (id : String) :
    firstOfRun (sweeps ++ [s]) id =
      if s.shows id then (firstOfRun sweeps id).or (some s) else none := by
  rw [firstOfRun, firstOfRun, run, run, List.reverse_concat', List.takeWhile_cons]
  split
  · rw [List.reverse_cons, List.head?_append, List.head?_singleton]
  · rfl

/-- `last_seen_orders` holds the visible orders of the last book and nothing else for the item,
each first seen when its run began. -/
def Mirrors (clock : Clock) (db : Tables) (sweeps : List SweepInput) (last : SweepInput) : Prop :=
  ∀ row : SeenOrder, row ∈ db.liveSet last.itemId ↔
    ∃ o ∈ last.orders, o.visible = true ∧
      ∃ first, firstOfRun sweeps o.id = some first ∧ row = o.toSeen (clock.ts first.sweptAt)

/-- Every order of the last book is still listed under the sub-type, side and user it had when
its run began. -/
def KeepsListings (sweeps : List SweepInput) (last : SweepInput) : Prop :=
  ∀ o ∈ last.orders, o.visible = true → ∀ first o', firstOfRun sweeps o.id = some first →
    first.listing o.id = some o' →
    o'.subTypeKey = o.subTypeKey ∧ o'.side = o.side ∧ o'.user.id = o.user.id

/-! ### What one sweep does to the row of one order -/

theorem before_liveSet (db : Tables) (itemId id : String) :
    before (db.liveSet itemId) id =
      (db.lastSeenOrders.lookup id).bind fun row =>
        if row.itemId = itemId then some row.order else none := by
  cases hbefore : before (db.liveSet itemId) id with
  | none =>
      cases hrow : db.lastSeenOrders.lookup id with
      | none => rfl
      | some row =>
          rw [Option.bind_some]
          split
          · next hitem =>
              have hmem : row.order ∈ db.liveSet itemId :=
                List.mem_map_of_mem (List.mem_filter.mpr
                  ⟨Table.mem_of_lookup hrow, decide_eq_true hitem⟩)
              exact absurd (Table.key_of_lookup hrow) (before_eq_none.mp hbefore _ hmem)
          · rfl
  | some prev =>
      obtain ⟨hmem, hid⟩ := before_some hbefore
      obtain ⟨row, hrow, hprev⟩ := List.mem_map.mp hmem
      rw [List.mem_filter, decide_eq_true_eq] at hrow
      have hlookup := Table.lookup_of_mem hrow.1
      rw [hprev, hid] at hlookup
      rw [hlookup, Option.bind_some, if_pos hrow.2, hprev]

/-- The row of an id, when it belongs to the item. -/
def Holds (t : LastSeenOrders) (itemId id : String) (row : LastSeenRow) : Prop :=
  t.lookup id = some row ∧ row.itemId = itemId

theorem before_eq_some {db : Tables} {itemId id : String} {prev : SeenOrder} :
    before (db.liveSet itemId) id = some prev ↔
      ∃ row, Holds db.lastSeenOrders itemId id row ∧ row.order = prev := by
  rw [before_liveSet, Option.bind_eq_some_iff]
  constructor
  · rintro ⟨row, hrow, hprev⟩
    split at hprev
    · next hitem =>
        cases hprev
        exact ⟨row, ⟨hrow, hitem⟩, rfl⟩
    · cases hprev
  · rintro ⟨row, ⟨hrow, hitem⟩, hprev⟩
    refine ⟨row, hrow, ?_⟩
    rw [if_pos hitem, hprev]

theorem before_eq_none_iff {db : Tables} {itemId id : String} :
    before (db.liveSet itemId) id = none ↔ ∀ row, ¬ Holds db.lastSeenOrders itemId id row := by
  rw [Option.eq_none_iff_forall_ne_some]
  constructor
  · intro h row hrow
    exact h _ (before_eq_some.mpr ⟨row, hrow, rfl⟩)
  · intro h prev hprev
    obtain ⟨row, hrow, _⟩ := before_eq_some.mp hprev
    exact h row hrow

section Step

variable {db : Tables} {s : SweepInput} {sweptAt : String}

theorem find_new (id : String) :
    ((diffOrders (db.liveSet s.itemId) (toSeen s.orders sweptAt)).new.reverse.find?
        fun o => o.orderId = id) =
      if (before (db.liveSet s.itemId) id).isNone then
        (s.listing id).map fun o => o.toSeen sweptAt
      else none := by
  simp only [diffOrders, ← List.filter_reverse, List.find?_filter]
  rw [← s.find_toSeen sweptAt id]
  split
  · next hnone =>
      congr 1
      funext r
      by_cases hr : r.orderId = id
      · simp [hr, hnone]
      · simp [hr]
  · next hsome =>
      rw [List.find?_eq_none]
      intro r _
      by_cases hr : r.orderId = id
      · simp [hr, hsome]
      · simp [hr]

theorem mem_changed {c : Changed}
    (h : c ∈ (diffOrders (db.liveSet s.itemId) (toSeen s.orders sweptAt)).changed) :
    ∃ o ∈ s.orders, o.visible = true ∧ ∃ prev,
      before (db.liveSet s.itemId) o.id = some prev ∧ change prev (o.toSeen sweptAt) = some c ∧
        c.after.orderId = o.id := by
  obtain ⟨r, hr, hc⟩ := List.mem_filterMap.mp h
  obtain ⟨o, ho, hv, hseen⟩ := mem_toSeen.mp hr
  subst hseen
  obtain ⟨prev, hprev, hchange⟩ := Option.bind_eq_some_iff.mp hc
  refine ⟨o, ho, hv, prev, hprev, hchange, ?_⟩
  rw [(change_eq_some hchange).2]
  rfl

variable (sweptAt) in
theorem mem_vanished_iff {id : String} :
    id ∈ (diffOrders (db.liveSet s.itemId) (toSeen s.orders sweptAt)).vanished.map SeenOrder.orderId ↔
      before (db.liveSet s.itemId) id ≠ none ∧ s.shows id = false := by
  simp only [diffOrders, List.mem_map, List.mem_filter, decide_eq_true_eq]
  constructor
  · rintro ⟨prev, ⟨hprev, hgone⟩, rfl⟩
    refine ⟨fun hnone => before_eq_none.mp hnone prev hprev rfl, ?_⟩
    rw [Bool.eq_false_iff, ne_eq, ← @SweepInput.mem_ids_toSeen s sweptAt]
    simpa only [List.mem_map] using hgone
  · rintro ⟨hsome, hgone⟩
    obtain ⟨prev, hprev⟩ := Option.ne_none_iff_exists'.mp hsome
    obtain ⟨hmem, rfl⟩ := before_some hprev
    refine ⟨prev, ⟨hmem, ?_⟩, rfl⟩
    rw [Bool.eq_false_iff, ne_eq, ← @SweepInput.mem_ids_toSeen s sweptAt] at hgone
    simpa only [List.mem_map] using hgone

variable (s sweptAt) in
def patched (db : Tables) : LastSeenOrders :=
  patch s.itemId sweptAt (diffOrders (db.liveSet s.itemId) (toSeen s.orders sweptAt))
    db.lastSeenOrders

variable (sweptAt) in
/-- An id the item had no row for gets one exactly when the book shows it. -/
theorem patched_fresh {id : String} (hfresh : before (db.liveSet s.itemId) id = none) :
    (patched s sweptAt db).lookup id =
      match s.listing id with
      | some o => some ⟨s.itemId, o.toSeen sweptAt, sweptAt⟩
      | none => db.lastSeenOrders.lookup id := by
  have hkept : id ∉ (diffOrders (db.liveSet s.itemId)
      (toSeen s.orders sweptAt)).vanished.map SeenOrder.orderId :=
    fun h => ((mem_vanished_iff sweptAt).mp h).1 hfresh
  have hother : ∀ c ∈ (diffOrders (db.liveSet s.itemId) (toSeen s.orders sweptAt)).changed,
      c.after.orderId ≠ id := by
    intro c hc hid
    obtain ⟨o, _, _, prev, hprev, _, hoid⟩ := mem_changed hc
    rw [← hoid, hid, hfresh] at hprev
    cases hprev
  rw [patched, patch, lookup_inserts, find_new, hfresh, if_pos Option.isNone_none]
  cases s.listing id with
  | some o => rfl
  | none =>
      simp only [Option.map_none]
      rw [lookup_updates_other sweptAt hother, lookup_deletes, if_neg hkept]

variable (sweptAt) in
theorem patched_gone {id : String} {row : LastSeenRow}
    (hrow : Holds db.lastSeenOrders s.itemId id row) (hgone : s.shows id = false) :
    (patched s sweptAt db).lookup id = none := by
  have hbefore := before_eq_some.mpr ⟨row, hrow, rfl⟩
  have hvanished := (mem_vanished_iff sweptAt).mpr
    ⟨by rw [hbefore]; exact Option.some_ne_none _, hgone⟩
  rw [patched, patch, lookup_inserts, find_new, hbefore]
  simp only [Option.isNone_some, Bool.false_eq_true, if_false]
  refine lookup_updates_none sweptAt ?_
  rw [lookup_deletes, if_pos hvanished]

variable (sweptAt) in
theorem patched_kept {id : String} {row : LastSeenRow}
    (hrow : Holds db.lastSeenOrders s.itemId id row) (hshown : s.shows id = true) :
    (patched s sweptAt db).lookup id =
      ((diffOrders (db.liveSet s.itemId) (toSeen s.orders sweptAt)).changed.foldl
        (updateChanged sweptAt)
        ((diffOrders (db.liveSet s.itemId) (toSeen s.orders sweptAt)).vanished.foldl deleteVanished
          db.lastSeenOrders)).lookup id ∧
    ((diffOrders (db.liveSet s.itemId) (toSeen s.orders sweptAt)).vanished.foldl deleteVanished
      db.lastSeenOrders).lookup id = some row := by
  have hbefore := before_eq_some.mpr ⟨row, hrow, rfl⟩
  have hkept : id ∉ (diffOrders (db.liveSet s.itemId)
      (toSeen s.orders sweptAt)).vanished.map SeenOrder.orderId := by
    intro h
    rw [mem_vanished_iff, hshown] at h
    exact Bool.noConfusion h.2
  constructor
  · rw [patched, patch, lookup_inserts, find_new, hbefore]
    rfl
  · rw [lookup_deletes, if_neg hkept, hrow.1]

variable (sweptAt) in
/-- The row of an order that the book shows once gets its price and quantity. -/
theorem patched_price {o : V2Order} {row row' : LastSeenRow}
    (hrow : Holds db.lastSeenOrders s.itemId o.id row) (hdistinct : (s.orders.map V2Order.id).Nodup)
    (ho : o ∈ s.orders) (hv : o.visible = true)
    (hrow' : (patched s sweptAt db).lookup o.id = some row') :
    row'.order.platinum = o.platinum ∧ row'.order.quantity = o.quantity := by
  obtain ⟨hlookup, hkept⟩ := patched_kept sweptAt hrow (SweepInput.shows_of_mem ho hv)
  have hbefore := before_eq_some.mpr ⟨row, hrow, rfl⟩
  refine lookup_updates_price sweptAt ?_ hkept ?_ (hlookup.symm.trans hrow')
  · intro c hc hcid
    obtain ⟨o₂, ho₂, _, prev, _, hchange, hid₂⟩ := mem_changed hc
    have hsame₂ := List.inj_on_of_nodup_map hdistinct ho₂ ho (hid₂.symm.trans hcid)
    subst hsame₂
    rw [(change_eq_some hchange).2]
    exact ⟨rfl, rfl⟩
  · cases hchange : change row.order (o.toSeen sweptAt) with
    | none => exact .inl (change_eq_none hchange)
    | some c =>
        refine .inr ⟨c, ?_, ?_⟩
        · refine List.mem_filterMap.mpr ⟨_, mem_toSeen.mpr ⟨o, ho, hv, rfl⟩, ?_⟩
          rw [show (o.toSeen sweptAt).orderId = o.id from rfl, hbefore, Option.bind_some, hchange]
        · rw [(change_eq_some hchange).2]
          rfl

variable (sweptAt) in
/-- A row of the item is the row it had, edited, or that of an order it had none for. -/
theorem patched_cases {id : String} {row' : LastSeenRow}
    (hrow' : Holds (patched s sweptAt db) s.itemId id row') :
    ∃ o, s.listing id = some o ∧
      ((before (db.liveSet s.itemId) id = none ∧ row' = ⟨s.itemId, o.toSeen sweptAt, sweptAt⟩) ∨
        ∃ row, Holds db.lastSeenOrders s.itemId id row ∧ SameListing row row') := by
  cases hbefore : before (db.liveSet s.itemId) id with
  | none =>
      have hnew := patched_fresh sweptAt hbefore
      cases hlisting : s.listing id with
      | none =>
          rw [hlisting] at hnew
          exact absurd ⟨hnew.symm.trans hrow'.1, hrow'.2⟩ (before_eq_none_iff.mp hbefore row')
      | some o =>
          rw [hlisting] at hnew
          exact ⟨o, rfl, .inl ⟨rfl, Option.some.inj (hrow'.1.symm.trans hnew)⟩⟩
  | some prev =>
      obtain ⟨row, hrow, _⟩ := before_eq_some.mp hbefore
      cases hshown : s.shows id with
      | false =>
          have hnone := patched_gone sweptAt hrow hshown
          rw [hrow'.1] at hnone
          cases hnone
      | true =>
          obtain ⟨o, ho⟩ := Option.isSome_iff_exists.mp hshown
          obtain ⟨hlookup, hkept⟩ := patched_kept sweptAt hrow hshown
          obtain ⟨row'', hrow'', hsame⟩ := lookup_updates_some sweptAt hkept
          have hlast := hrow'.1.symm.trans (hlookup.trans hrow'')
          cases hlast
          exact ⟨o, ho, .inr ⟨row, hrow, hsame⟩⟩

end Step

/-! ### What a whole history leaves of it -/

/-- The item has a row for exactly the ids whose run is unbroken, and each row is still the listing
it was inserted with, price and quantity apart. -/
def Tracked (clock : Clock) (itemId : String) (sweeps : List SweepInput) (t : LastSeenOrders) : Prop :=
  ∀ id : String, match firstOfRun sweeps id with
    | none => ∀ row, ¬ Holds t itemId id row
    | some first => ∃ row o, Holds t itemId id row ∧ first.listing id = some o ∧
        SameListing ⟨itemId, o.toSeen (clock.ts first.sweptAt), clock.ts first.sweptAt⟩ row

theorem Tracked.step {clock : Clock} {db : Tables} {sweeps : List SweepInput} {s : SweepInput}
    (h : Tracked clock s.itemId sweeps db.lastSeenOrders) :
    Tracked clock s.itemId (sweeps ++ [s]) (applySweep clock db s).1.lastSeenOrders := by
  change Tracked clock s.itemId (sweeps ++ [s]) (patched s (clock.ts s.sweptAt) db)
  intro id
  have hid := h id
  rw [firstOfRun_snoc]
  cases hfirst : firstOfRun sweeps id with
  | none =>
      rw [hfirst] at hid
      have hnew := patched_fresh (clock.ts s.sweptAt) (before_eq_none_iff.mpr hid)
      cases hlisting : s.listing id with
      | none =>
          have hshown : s.shows id = false := by rw [SweepInput.shows, hlisting]; rfl
          rw [hlisting] at hnew
          rw [hshown]
          intro row hrow
          exact hid row ⟨hnew.symm.trans hrow.1, hrow.2⟩
      | some o =>
          have hshown : s.shows id = true := by rw [SweepInput.shows, hlisting]; rfl
          rw [hlisting] at hnew
          rw [hshown]
          exact ⟨_, o, ⟨hnew, rfl⟩, hlisting, .refl _⟩
  | some first =>
      rw [hfirst] at hid
      obtain ⟨row, o, hrow, hlisting, hsame⟩ := hid
      cases hshown : s.shows id with
      | false =>
          intro row' hrow'
          have hnone := patched_gone (clock.ts s.sweptAt) hrow hshown
          rw [hrow'.1] at hnone
          cases hnone
      | true =>
          obtain ⟨hlookup, hkept⟩ := patched_kept (clock.ts s.sweptAt) hrow hshown
          obtain ⟨row', hrow', hrest⟩ := lookup_updates_some (clock.ts s.sweptAt) hkept
          refine ⟨row', o, ⟨hlookup.trans hrow', hrest.itemId.trans hrow.2⟩, hlisting, ?_⟩
          exact hsame.trans hrest

theorem Tracked.run (clock : Clock) {itemId : String} {db : Tables}
    (hfresh : ∀ row ∈ db.lastSeenOrders.rows, row.itemId ≠ itemId)
    (sweeps : List SweepInput) (hitem : ∀ s ∈ sweeps, s.itemId = itemId) :
    Tracked clock itemId sweeps
      (sweeps.foldl (fun db input => (applySweep clock db input).1) db).lastSeenOrders := by
  induction sweeps using List.reverseRecOn with
  | nil => exact fun id row hrow => hfresh row (Table.mem_of_lookup hrow.1) hrow.2
  | append_singleton sweeps s ih =>
      rw [List.foldl_append, List.foldl_cons, List.foldl_nil]
      have hlast : s.itemId = itemId := hitem s (List.mem_append_right _ List.mem_cons_self)
      have hrest := ih fun s' hs' => hitem s' (List.mem_append_left _ hs')
      subst hlast
      exact hrest.step

/-- The row of an order the last, distinct book shows: its price and quantity are the book's, the
rest is what its run began with. -/
theorem last_row {clock : Clock} {db : Tables} {sweeps : List SweepInput} {last : SweepInput}
    (htracked : Tracked clock last.itemId sweeps db.lastSeenOrders)
    (hdistinct : (last.orders.map V2Order.id).Nodup) {o : V2Order} (ho : o ∈ last.orders)
    (hv : o.visible = true) :
    ∃ first o' row, firstOfRun (sweeps ++ [last]) o.id = some first ∧
      first.listing o.id = some o' ∧
      Holds (applySweep clock db last).1.lastSeenOrders last.itemId o.id row ∧
      row.order = { o.toSeen (clock.ts first.sweptAt) with
        subType := o'.subTypeKey, side := o'.side, userId := o'.user.id } := by
  have hshown := SweepInput.shows_of_mem ho hv
  have hlisting := SweepInput.listing_of_distinct hdistinct ho hv
  have hstep := htracked.step o.id
  have hid := htracked o.id
  rw [firstOfRun_snoc, hshown, if_pos rfl] at hstep ⊢
  cases hfirst : firstOfRun sweeps o.id with
  | none =>
      rw [hfirst] at hid
      have hnew := patched_fresh (clock.ts last.sweptAt) (before_eq_none_iff.mpr hid)
      rw [hlisting] at hnew
      exact ⟨last, o, _, rfl, hlisting, ⟨hnew, rfl⟩, rfl⟩
  | some first =>
      rw [hfirst] at hid hstep
      obtain ⟨row, _, hrow, _, _⟩ := hid
      obtain ⟨row', o', hrow', ho', hsame⟩ := hstep
      have hprice := patched_price (clock.ts last.sweptAt) hrow hdistinct ho hv hrow'.1
      refine ⟨first, o', row', rfl, ho', hrow', ?_⟩
      obtain ⟨hmem, hvis, hid'⟩ := SweepInput.listing_mem ho'
      obtain ⟨itemId, order, updatedAt⟩ := row'
      obtain ⟨orderId, subType, side, platinum, quantity, userId, firstSeen⟩ := order
      obtain ⟨_, horder, hsub, hside, huser, hseen⟩ := hsame
      simp only [V2Order.toSeen] at *
      simp only [SeenOrder.mk.injEq]
      exact ⟨horder.trans hid', hsub, hside, hprice.1, hprice.2, huser, hseen⟩

theorem mem_liveSet {db : Tables} {itemId : String} {r : SeenOrder} :
    r ∈ db.liveSet itemId ↔ ∃ row, Holds db.lastSeenOrders itemId r.orderId row ∧ row.order = r := by
  simp only [Tables.liveSet, List.mem_map, List.mem_filter, decide_eq_true_eq]
  constructor
  · rintro ⟨row, ⟨hrow, hitem⟩, rfl⟩
    exact ⟨row, ⟨Table.lookup_of_mem hrow, hitem⟩, rfl⟩
  · rintro ⟨row, ⟨hrow, hitem⟩, hr⟩
    exact ⟨row, ⟨Table.mem_of_lookup hrow, hitem⟩, hr⟩

/-- The live set mirrors the last book exactly when every order in it is still the listing it was
when its run of sweeps began. -/
theorem live_set_mirrors_book (clock : Clock) (db : Tables) (itemId : String) (history : List Sweep)
    (last : SweepInput) (hfresh : ∀ row ∈ db.lastSeenOrders.rows, row.itemId ≠ itemId)
    (hitem : ∀ s ∈ history, s.input.itemId = itemId) (hlast : last.itemId = itemId)
    (hdistinct : (last.orders.map V2Order.id).Nodup) :
    Mirrors clock (afterSweeps clock db (history ++ [⟨last, true⟩]))
        (stored history ++ [last]) last ↔
      KeepsListings (stored history ++ [last]) last := by
  subst hlast
  have hstored : ∀ s ∈ stored history, s.itemId = last.itemId := by
    intro s hs
    obtain ⟨sweep, hsweep, rfl⟩ := List.mem_map.mp hs
    exact hitem sweep (List.mem_filter.mp hsweep).1
  have htracked := Tracked.run clock hfresh (stored history) hstored
  have hafter : afterSweeps clock db (history ++ [⟨last, true⟩]) =
      (applySweep clock (afterSweeps clock db history) last).1 := by
    rw [afterSweeps, List.foldl_append]
    rfl
  rw [← afterSweeps_eq_stored] at htracked
  have hrows := fun o (ho : o ∈ last.orders) hv => last_row htracked hdistinct ho hv
  rw [hafter]
  constructor
  · intro hmirrors o ho hv first o' hfirst ho'
    obtain ⟨first₁, o₁, row, hfirst₁, ho₁, hrow, horder⟩ := hrows o ho hv
    cases hfirst.symm.trans hfirst₁
    cases ho'.symm.trans ho₁
    have hmem := mem_liveSet.mpr ⟨row, ⟨by rw [horder]; exact hrow.1, hrow.2⟩, rfl⟩
    obtain ⟨o₂, ho₂, _, first₂, _, hrow₂⟩ := (hmirrors row.order).mp hmem
    rw [horder] at hrow₂
    have hsame : o = o₂ :=
      List.inj_on_of_nodup_map hdistinct ho ho₂ (congrArg SeenOrder.orderId hrow₂)
    subst hsame
    exact ⟨congrArg SeenOrder.subType hrow₂, congrArg SeenOrder.side hrow₂,
      congrArg SeenOrder.userId hrow₂⟩
  · intro hkeeps
    have hseen : ∀ o ∈ last.orders, o.visible = true → ∃ first row,
        firstOfRun (stored history ++ [last]) o.id = some first ∧
        Holds (applySweep clock (afterSweeps clock db history) last).1.lastSeenOrders
          last.itemId o.id row ∧ row.order = o.toSeen (clock.ts first.sweptAt) := by
      intro o ho hv
      obtain ⟨first, o', row, hfirst, ho', hrow, horder⟩ := hrows o ho hv
      obtain ⟨hsub, hside, huser⟩ := hkeeps o ho hv first o' hfirst ho'
      refine ⟨first, row, hfirst, hrow, ?_⟩
      rw [horder, hsub, hside, huser]
      rfl
    intro r
    rw [mem_liveSet]
    constructor
    · rintro ⟨row, hrow, rfl⟩
      have hid := htracked.step row.order.orderId
      cases hfirst : firstOfRun (stored history ++ [last]) row.order.orderId with
      | none =>
          rw [hfirst] at hid
          exact absurd hrow (hid row)
      | some first =>
          rw [firstOfRun_snoc] at hfirst
          split at hfirst
          · next hshown =>
              obtain ⟨o, hlisting⟩ := Option.isSome_iff_exists.mp hshown
              obtain ⟨ho, hv, hoid⟩ := SweepInput.listing_mem hlisting
              obtain ⟨first', row', hfirst', hrow', horder'⟩ := hseen o ho hv
              rw [hoid] at hrow'
              have hsame : row = row' := Option.some.inj (hrow.1.symm.trans hrow'.1)
              subst hsame
              exact ⟨o, ho, hv, first', hfirst', horder'⟩
          · cases hfirst
    · rintro ⟨o, ho, hv, first, hfirst, rfl⟩
      obtain ⟨first', row, hfirst', hrow, horder⟩ := hseen o ho hv
      cases hfirst.symm.trans hfirst'
      exact ⟨row, hrow, horder⟩

/-! ### An order that changes its rank -/

def midnight : Int := 1789430400000000000

def fivePast : Int := midnight + 300000000000

def nightClock : Clock where
  ts at_ := if at_ = midnight then "2026-09-15T00:00:00Z" else "2026-09-15T00:05:00Z"
  parseTs text :=
    if text = "2026-09-15T00:00:00Z" then some midnight
    else if text = "2026-09-15T00:05:00Z" then some fivePast else none

def nightTables : Tables := ⟨Table.empty, [], [], Table.empty⟩

def arcaneAt (rank platinum : Int) : V2Order where
  id := "s1"
  side := "sell"
  platinum := platinum
  quantity := 1
  rank := some rank
  charges := none
  subtype := none
  amberStars := none
  cyanStars := none
  visible := true
  itemId := "item1"
  user := ⟨"u1", "u1", "ingame"⟩

def nightSweep (order : V2Order) (sweptAt : Int) : SweepInput :=
  ⟨"item1", "hot", [order], sweptAt, 300, fun g e => decide (3 * e < g)⟩

/-- A book with distinct ids whose live set is not its visible orders: the seller put the rank up
between the sweeps. -/
theorem reranked_order_is_not_mirrored :
    ([arcaneAt 5 20].map V2Order.id).Nodup ∧
      ¬ Mirrors nightClock
        (afterSweeps nightClock nightTables
          ([⟨nightSweep (arcaneAt 0 20) midnight, true⟩] ++
            [⟨nightSweep (arcaneAt 5 20) fivePast, true⟩]))
        (stored [⟨nightSweep (arcaneAt 0 20) midnight, true⟩] ++
          [nightSweep (arcaneAt 5 20) fivePast])
        (nightSweep (arcaneAt 5 20) fivePast) := by
  refine ⟨by decide, ?_⟩
  intro hmirrors
  have hstale : (arcaneAt 0 20).toSeen "2026-09-15T00:00:00Z" ∈
      (afterSweeps nightClock nightTables
        ([⟨nightSweep (arcaneAt 0 20) midnight, true⟩] ++
          [⟨nightSweep (arcaneAt 5 20) fivePast, true⟩])).liveSet "item1" := by
    decide +kernel
  obtain ⟨o, ho, _, first, _, hrow⟩ := (hmirrors _).mp hstale
  rw [List.mem_singleton.mp ho] at hrow
  have hkey : (arcaneAt 0 20).subTypeKey = (arcaneAt 5 20).subTypeKey :=
    congrArg SeenOrder.subType hrow
  exact absurd hkey (by decide +kernel)

/-- A price edit keeps the mirror. -/
theorem live_set_mirrors_book_after_edit :
    Mirrors nightClock
        (afterSweeps nightClock nightTables
          ([⟨nightSweep (arcaneAt 0 20) midnight, true⟩] ++
            [⟨nightSweep (arcaneAt 0 18) fivePast, true⟩]))
        (stored [⟨nightSweep (arcaneAt 0 20) midnight, true⟩] ++
          [nightSweep (arcaneAt 0 18) fivePast])
        (nightSweep (arcaneAt 0 18) fivePast) ↔
      KeepsListings
        (stored [⟨nightSweep (arcaneAt 0 20) midnight, true⟩] ++
          [nightSweep (arcaneAt 0 18) fivePast])
        (nightSweep (arcaneAt 0 18) fivePast) :=
  live_set_mirrors_book nightClock nightTables "item1"
    [⟨nightSweep (arcaneAt 0 20) midnight, true⟩] (nightSweep (arcaneAt 0 18) fivePast)
    (by decide) (by decide) rfl (by decide)

end Quantframe.Collector
