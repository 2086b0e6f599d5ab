import Quantframe.Collector.Mirror
import Quantframe.Collector.Resolve

/-!
# Histories of sweeps and resolutions

What the tables say about the orders of a history: an order that a sweep showed for the first time
leaves a row for as long as the history is kept, and every row comes from such an order.
-/

namespace Quantframe.Collector

open Lib

/-- A sweep that is written, or a run of `resolve_pending`. -/
inductive Event where
  | sweep (input : SweepInput)
  | resolve (now : Int)

def Event.apply (clock : Clock) (cfg : StatsConfig) (db : Tables) : Event → Tables
  | .sweep input => (applySweep clock db input).1
  | .resolve now => resolvePending clock cfg db now

def afterEvents (clock : Clock) (cfg : StatsConfig) (db : Tables) (events : List Event) : Tables :=
  events.foldl (Event.apply clock cfg) db

def Event.sweep? : Event → Option SweepInput
  | .sweep input => some input
  | .resolve _ => none

def sweepsOf (events : List Event) : List SweepInput := events.filterMap Event.sweep?

/-- Nothing was ever swept. -/
structure Blank (db : Tables) : Prop where
  seen : db.lastSeenOrders.rows = []
  vanished : db.vanishedOrders = []

/-- The item's last sweep shows the id. -/
def shownLast (sweeps : List SweepInput) (itemId id : String) : Bool :=
  (sweeps.filter fun s => s.itemId = itemId).getLast?.any fun s => s.shows id

/-- The orders a sweep shows and the sweep of its item before it did not. -/
def firstSeen (earlier : List SweepInput) (s : SweepInput) : List V2Order :=
  s.orders.filter fun o => o.visible && decide (s.listing o.id = some o) &&
    !shownLast earlier s.itemId o.id

/-- No order has the id of an order that is listed for another item. -/
def OwnIds (db : Tables) (s : SweepInput) : Prop :=
  ∀ o ∈ s.orders, o.visible = true → ∀ row, db.lastSeenOrders.lookup o.id = some row →
    row.itemId = s.itemId

/-- The order of a row was first seen, as it is, by a sweep of the history. -/
def SeenIn (clock : Clock) (sweeps : List SweepInput) (itemId : String) (order : SeenOrder) : Prop :=
  ∃ pre s post o, sweeps = pre ++ s :: post ∧ s.itemId = itemId ∧ o ∈ firstSeen pre s ∧
    (o.toSeen (clock.ts s.sweptAt)).SameOffer order ∧ order.firstSeen = clock.ts s.sweptAt

/-- The row is about an order first seen, as `o`, at that time. -/
structure Attests (itemId stamp : String) (o : V2Order) (rowItem : String) (order : SeenOrder) :
    Prop where
  item : rowItem = itemId
  offer : (o.toSeen stamp).SameOffer order
  stamp : order.firstSeen = stamp

/-- A row attests the order: its own, or one of the vanishes from `base` on. -/
def Evidence (db : Tables) (base : Nat) (itemId stamp : String) (o : V2Order) : Prop :=
  (∃ row, Holds db.lastSeenOrders itemId o.id row ∧ Attests itemId stamp o row.itemId row.order) ∨
    ∃ j row, base ≤ j ∧ db.vanishedOrders[j]? = some row ∧
      Attests itemId stamp o row.itemId row.order

theorem split_snoc {α : Type} {events pre post : List α} {e x : α}
    (h : events ++ [e] = pre ++ x :: post) :
    (post = [] ∧ events = pre ∧ e = x) ∨ ∃ post', post = post' ++ [e] ∧ events = pre ++ x :: post' := by
  cases post using List.reverseRecOn with
  | nil =>
      obtain ⟨hpre, hx⟩ := List.append_inj' h rfl
      exact .inl ⟨rfl, hpre, List.singleton_inj.mp hx⟩
  | append_singleton post e' =>
      rw [← List.cons_append, ← List.append_assoc] at h
      obtain ⟨hpre, he⟩ := List.append_inj' h rfl
      cases List.singleton_inj.mp he
      exact .inr ⟨post, rfl, hpre⟩

/-- The sweeps of a history, each with the events before it. -/
def sweepSteps (earlier : List Event) : List Event → List (List Event × SweepInput)
  | [] => []
  | .sweep s :: later => (earlier, s) :: sweepSteps (earlier ++ [.sweep s]) later
  | .resolve now :: later => sweepSteps (earlier ++ [.resolve now]) later

theorem mem_sweepSteps {earlier events : List Event} {p : List Event × SweepInput} :
    p ∈ sweepSteps earlier events ↔
      ∃ pre post, p.1 = earlier ++ pre ∧ events = pre ++ .sweep p.2 :: post := by
  induction events generalizing earlier with
  | nil => simp [sweepSteps]
  | cons e events ih =>
      have hrest : p ∈ sweepSteps (earlier ++ [e]) events ↔
          ∃ pre post, p.1 = earlier ++ e :: pre ∧ e :: events = e :: pre ++ .sweep p.2 :: post := by
        rw [ih]
        simp only [List.append_assoc, List.cons_append, List.nil_append, List.cons.injEq, true_and]
      have hcons : (∃ pre post, p.1 = earlier ++ pre ∧ e :: events = pre ++ .sweep p.2 :: post) ↔
          (p.1 = earlier ∧ e = .sweep p.2) ∨
            ∃ pre post, p.1 = earlier ++ e :: pre ∧ e :: events = e :: pre ++ .sweep p.2 :: post := by
        constructor
        · rintro ⟨pre, post, hp, hevents⟩
          cases pre with
          | nil =>
              rw [List.nil_append, List.cons.injEq] at hevents
              exact .inl ⟨by rw [hp, List.append_nil], hevents.1⟩
          | cons e' pre =>
              rw [List.cons_append, List.cons.injEq] at hevents
              obtain ⟨rfl, hevents⟩ := hevents
              exact .inr ⟨pre, post, hp, by rw [hevents, List.cons_append]⟩
        · rintro (⟨hp, he⟩ | ⟨pre, post, hp, hevents⟩)
          · exact ⟨[], events, by rw [hp, List.append_nil], by rw [he, List.nil_append]⟩
          · exact ⟨e :: pre, post, hp, hevents⟩
      rw [hcons, ← hrest]
      cases e with
      | sweep s =>
          rw [sweepSteps, List.mem_cons]
          refine or_congr_left ⟨?_, ?_⟩
          · rintro rfl
            exact ⟨rfl, rfl⟩
          · rintro ⟨hp, hs⟩
            cases hs
            exact Prod.ext hp rfl
      | resolve now =>
          rw [sweepSteps]
          simp

theorem afterEvents_snoc (clock : Clock) (cfg : StatsConfig) (db : Tables) (events : List Event)
    (e : Event) : afterEvents clock cfg db (events ++ [e]) = e.apply clock cfg (afterEvents clock cfg db events) := by
  rw [afterEvents, List.foldl_append]
  rfl

theorem sweepsOf_append (events later : List Event) :
    sweepsOf (events ++ later) = sweepsOf events ++ sweepsOf later := List.filterMap_append ..

theorem shownLast_snoc (sweeps : List SweepInput) (s : SweepInput) (itemId id : String) :
    shownLast (sweeps ++ [s]) itemId id =
      if s.itemId = itemId then s.shows id else shownLast sweeps itemId id := by
  rw [shownLast, List.filter_append]
  by_cases hitem : s.itemId = itemId
  · rw [if_pos hitem, List.filter_cons_of_pos (by simpa using hitem), List.filter_nil,
      List.getLast?_concat, Option.any_some]
  · rw [if_neg hitem, List.filter_cons_of_neg (by simpa using hitem), List.filter_nil, List.append_nil,
      shownLast]

theorem mem_firstSeen {earlier : List SweepInput} {s : SweepInput} {o : V2Order} :
    o ∈ firstSeen earlier s ↔ s.listing o.id = some o ∧ shownLast earlier s.itemId o.id = false := by
  simp only [firstSeen, List.mem_filter, Bool.and_eq_true, decide_eq_true_eq, Bool.not_eq_true']
  constructor
  · rintro ⟨_, ⟨_, hlisting⟩, hnew⟩
    exact ⟨hlisting, hnew⟩
  · rintro ⟨hlisting, hnew⟩
    obtain ⟨ho, hv, _⟩ := SweepInput.listing_mem hlisting
    exact ⟨ho, ⟨hv, hlisting⟩, hnew⟩

/-! ### The rows of the swept item and of the others -/

section Rows

variable {db : Tables} {s : SweepInput} (stamp : String)

theorem holds_patched_iff (id : String) :
    (∃ row, Holds (patched s stamp db) s.itemId id row) ↔ s.shows id = true := by
  constructor
  · rintro ⟨row, hrow⟩
    obtain ⟨o, hlisting, _⟩ := patched_cases stamp hrow
    rw [SweepInput.shows, hlisting]
    rfl
  · intro hshown
    cases hbefore : before (db.liveSet s.itemId) id with
    | none =>
        have hnew := patched_fresh stamp hbefore
        obtain ⟨o, hlisting⟩ := Option.isSome_iff_exists.mp hshown
        rw [hlisting] at hnew
        exact ⟨_, hnew, rfl⟩
    | some prev =>
        obtain ⟨row, hrow, _⟩ := before_eq_some.mp hbefore
        obtain ⟨hlookup, hkept⟩ := patched_kept stamp hrow hshown
        obtain ⟨row', hrow', hsame⟩ := lookup_updates_some stamp hkept
        exact ⟨row', hlookup.trans hrow', hsame.itemId.trans hrow.2⟩

/-- A sweep leaves the rows of the other items alone. -/
theorem holds_patched_other (hown : OwnIds db s) {itemId : String} (hother : s.itemId ≠ itemId)
    (id : String) (row : LastSeenRow) :
    Holds (patched s stamp db) itemId id row ↔ Holds db.lastSeenOrders itemId id row := by
  cases hbefore : before (db.liveSet s.itemId) id with
  | none =>
      have hnew := patched_fresh stamp hbefore
      cases hlisting : s.listing id with
      | none =>
          rw [hlisting] at hnew
          rw [Holds, Holds, hnew]
      | some o =>
          rw [hlisting] at hnew
          obtain ⟨ho, hv, hid⟩ := SweepInput.listing_mem hlisting
          subst hid
          constructor
          · rintro ⟨hrow, hitem⟩
            rw [hnew] at hrow
            cases hrow
            exact absurd hitem hother
          · rintro ⟨hrow, hitem⟩
            exact absurd ((hown o ho hv row hrow).symm.trans hitem) hother
  | some prev =>
      obtain ⟨old, hold, _⟩ := before_eq_some.mp hbefore
      constructor
      · rintro ⟨hrow, hitem⟩
        cases hshown : s.shows id with
        | false =>
            rw [patched_gone stamp hold hshown] at hrow
            cases hrow
        | true =>
            obtain ⟨hlookup, hkept⟩ := patched_kept stamp hold hshown
            obtain ⟨row', hrow', hsame⟩ := lookup_updates_some stamp hkept
            cases (hlookup.trans hrow').symm.trans hrow
            exact absurd ((hsame.itemId.trans hold.2).symm.trans hitem) hother
      · rintro ⟨hrow, hitem⟩
        cases hold.1.symm.trans hrow
        exact absurd (hold.2.symm.trans hitem) hother

/-- A row that is kept, or that vanishes into a new row of `vanished_orders`. -/
theorem holds_patched_kept {id : String} {row : LastSeenRow}
    (hrow : Holds db.lastSeenOrders s.itemId id row) :
    (∃ row', Holds (patched s stamp db) s.itemId id row' ∧ SameListing row row') ∨
      row.order ∈ (diffOrders (db.liveSet s.itemId) (toSeen s.orders stamp)).vanished := by
  cases hshown : s.shows id with
  | true =>
      obtain ⟨hlookup, hkept⟩ := patched_kept stamp hrow hshown
      obtain ⟨row', hrow', hsame⟩ := lookup_updates_some stamp hkept
      exact .inl ⟨row', ⟨hlookup.trans hrow', hsame.itemId.trans hrow.2⟩, hsame⟩
  | false =>
      right
      have hid := Table.key_of_lookup hrow.1
      change row.order.orderId = id at hid
      have hmem : row.order ∈ db.liveSet s.itemId := mem_liveSet.mpr ⟨row, by rwa [hid], rfl⟩
      refine List.mem_filter.mpr ⟨hmem, ?_⟩
      rw [decide_eq_true_eq, SweepInput.mem_ids_toSeen, hid, hshown]
      exact Bool.false_ne_true

/-- The order of a vanish was in the live set. -/
theorem mem_vanishRows_live {gap : Option Int} {status : String} {row : VanishedRow}
    (hrow : row ∈ vanishRows s.itemId stamp gap status
      (diffOrders (db.liveSet s.itemId) (toSeen s.orders stamp))) :
    row.itemId = s.itemId ∧ row.vanishedAt = stamp ∧ row.order ∈ db.liveSet s.itemId := by
  rcases List.mem_append.mp hrow with h | h
  · obtain ⟨o, ho, rfl⟩ := List.mem_map.mp h
    exact ⟨rfl, rfl, (List.mem_filter.mp ho).1⟩
  · obtain ⟨c, hc, rfl⟩ := List.mem_map.mp h
    obtain ⟨o, _, _, prev, hprev, hchange, _⟩ := mem_changed (List.mem_filter.mp hc).1
    refine ⟨rfl, rfl, ?_⟩
    rw [(change_eq_some hchange).1]
    exact (before_some hprev).1

/-- The order of a full vanish is missing from the book. -/
theorem mem_vanishRows_missing {gap : Option Int} {status : String} {row : VanishedRow}
    (hrow : row ∈ vanishRows s.itemId stamp gap status
      (diffOrders (db.liveSet s.itemId) (toSeen s.orders stamp))) (hfull : row.kind = "full") :
    row.order ∈ db.liveSet s.itemId ∧ s.shows row.order.orderId = false := by
  rcases List.mem_append.mp hrow with h | h
  · obtain ⟨o, ho, rfl⟩ := List.mem_map.mp h
    obtain ⟨hlive, hgone⟩ := List.mem_filter.mp ho
    rw [decide_eq_true_eq, SweepInput.mem_ids_toSeen, Bool.not_eq_true] at hgone
    exact ⟨hlive, hgone⟩
  · obtain ⟨c, _, rfl⟩ := List.mem_map.mp h
    have hkind : "partial" = "full" := hfull
    exact absurd hkind (by decide)

end Rows

theorem applySweep_vanished (clock : Clock) (db : Tables) (s : SweepInput) :
    ∃ gap status, (applySweep clock db s).1.vanishedOrders = db.vanishedOrders ++
        vanishRows s.itemId (clock.ts s.sweptAt) gap status
          (diffOrders (db.liveSet s.itemId) (toSeen s.orders (clock.ts s.sweptAt))) ∧
      (status = "gap" ∨ status = "pending") := by
  refine ⟨_, _, rfl, ?_⟩
  split
  · exact .inl rfl
  · exact .inr rfl

/-! ### What the tables attest -/

section Traced

variable (clock : Clock) (cfg : StatsConfig) (db : Tables) (events : List Event)

/-- Every sweep of the history keeps to the ids of its item. -/
def OwnIdsThroughout : Prop :=
  ∀ pre s post, events = pre ++ .sweep s :: post → OwnIds (afterEvents clock cfg db pre) s

/-- The number of vanishes recorded so far. -/
def vanishCount : Nat := (afterEvents clock cfg db events).vanishedOrders.length

/-- The rows are exactly about the orders the sweeps of the history have seen. -/
structure Traced : Prop where
  live : ∀ itemId id, (∃ row, Holds (afterEvents clock cfg db events).lastSeenOrders itemId id row) ↔
    shownLast (sweepsOf events) itemId id = true
  evidence : ∀ pre s post o, events = pre ++ .sweep s :: post → o ∈ firstSeen (sweepsOf pre) s →
    Evidence (afterEvents clock cfg db events) (vanishCount clock cfg db (pre ++ [.sweep s])) s.itemId
      (clock.ts s.sweptAt) o
  liveSeen : ∀ row ∈ (afterEvents clock cfg db events).lastSeenOrders.rows,
    SeenIn clock (sweepsOf events) row.itemId row.order
  vanishedSeen : ∀ row ∈ (afterEvents clock cfg db events).vanishedOrders,
    SeenIn clock (sweepsOf events) row.itemId row.order

end Traced

section

variable {clock : Clock} {cfg : StatsConfig} {db : Tables} {events : List Event} {itemId : String}

theorem SeenIn.later {sweeps : List SweepInput} {order : SeenOrder} (h : SeenIn clock sweeps itemId order)
    (later : List SweepInput) : SeenIn clock (sweeps ++ later) itemId order := by
  obtain ⟨pre, s, post, o, hsweeps, hrest⟩ := h
  exact ⟨pre, s, post ++ later, o, by rw [hsweeps, List.append_assoc, List.cons_append], hrest⟩

theorem SeenIn.congr {sweeps : List SweepInput} {order order' : SeenOrder}
    (h : SeenIn clock sweeps itemId order) (hoffer : order.SameOffer order')
    (hseen : order'.firstSeen = order.firstSeen) : SeenIn clock sweeps itemId order' := by
  obtain ⟨pre, s, post, o, hsweeps, hitem, ho, ho', hstamp⟩ := h
  exact ⟨pre, s, post, o, hsweeps, hitem, ho, ho'.trans hoffer, hseen.trans hstamp⟩

theorem SameListing.offer {row row' : LastSeenRow} (h : SameListing row row') :
    row.order.SameOffer row'.order := ⟨h.userId.symm, h.subType.symm, h.side.symm⟩

theorem Attests.congr {stamp rowItem rowItem' : String} {o : V2Order} {order order' : SeenOrder}
    (h : Attests itemId stamp o rowItem order) (hitem : rowItem' = rowItem)
    (hoffer : order.SameOffer order') (hseen : order'.firstSeen = order.firstSeen) :
    Attests itemId stamp o rowItem' order' :=
  ⟨hitem.trans h.item, h.offer.trans hoffer, hseen.trans h.stamp⟩

/-- Evidence outlives a resolution: it is among the facts. -/
theorem Evidence.sameFacts {db db' : Tables} {base : Nat} {stamp : String} {o : V2Order}
    (h : Evidence db base itemId stamp o) (hfacts : SameFacts db db') :
    Evidence db' base itemId stamp o := by
  rcases h with ⟨row, hrow, hattests⟩ | ⟨j, row, hj, hrow, hattests⟩
  · exact .inl ⟨row, by rwa [hfacts.seen], hattests⟩
  · right
    obtain ⟨row', hrow', hfact⟩ := hfacts.symm.getElem? hrow
    obtain ⟨hitem, horder, _, _⟩ := fields_of_facts hfact
    exact ⟨j, row', hj, hrow', by rwa [← hitem, ← horder]⟩

theorem sameFacts_resolvePending (db : Tables) (now : Int) :
    SameFacts db (resolvePending clock cfg db now) := by
  rw [resolvePending]
  generalize dueRows clock cfg db now = ids
  induction ids generalizing db with
  | nil => exact .refl db
  | cons i ids ih => exact (sameFacts_resolveRow db i).trans (ih _)

/-- Evidence outlives a sweep: the row stays, or it becomes a vanish. -/
theorem Evidence.sweep {base : Nat} {stamp : String} {o : V2Order} {s : SweepInput}
    (h : Evidence db base itemId stamp o) (hown : OwnIds db s) (hbase : base ≤ db.vanishedOrders.length) :
    Evidence (applySweep clock db s).1 base itemId stamp o := by
  obtain ⟨gap, status, hvanished, _⟩ := applySweep_vanished clock db s
  rcases h with ⟨row, hrow, hattests⟩ | ⟨j, row, hj, hrow, hattests⟩
  · by_cases hitem : s.itemId = itemId
    · subst hitem
      rcases holds_patched_kept (clock.ts s.sweptAt) hrow with ⟨row', hrow', hsame⟩ | hgone
      · exact .inl ⟨row', hrow', hattests.congr hsame.itemId hsame.offer hsame.firstSeen⟩
      · right
        have hnew : (⟨s.itemId, row.order, row.order.quantity, clock.ts s.sweptAt, gap, "full", status⟩ :
            VanishedRow) ∈ vanishRows s.itemId (clock.ts s.sweptAt) gap status
              (diffOrders (db.liveSet s.itemId) (toSeen s.orders (clock.ts s.sweptAt))) :=
          List.mem_append_left _ (List.mem_map.mpr ⟨_, hgone, rfl⟩)
        obtain ⟨k, hk⟩ := List.mem_iff_getElem?.mp hnew
        have hsame := @Attests.congr s.itemId stamp row.itemId s.itemId o row.order row.order hattests
          hrow.2.symm ⟨rfl, rfl, rfl⟩ rfl
        refine ⟨db.vanishedOrders.length + k,
          ⟨s.itemId, row.order, row.order.quantity, clock.ts s.sweptAt, gap, "full", status⟩,
          hbase.trans (Nat.le_add_right _ _), ?_, hsame⟩
        rw [hvanished, List.getElem?_append_right (Nat.le_add_right _ _), Nat.add_sub_cancel_left]
        exact hk
    · exact .inl ⟨row, (holds_patched_other _ hown hitem _ _).mpr hrow, hattests⟩
  · refine .inr ⟨j, row, hj, ?_, hattests⟩
    rw [hvanished, List.getElem?_append_left (List.getElem?_eq_some_iff.mp hrow).1]
    exact hrow

theorem apply_vanishCount_le (e : Event) :
    db.vanishedOrders.length ≤ (e.apply clock cfg db).vanishedOrders.length := by
  cases e with
  | sweep s =>
      obtain ⟨gap, status, hvanished, _⟩ := applySweep_vanished clock db s
      rw [Event.apply, hvanished, List.length_append]
      exact Nat.le_add_right _ _
  | resolve now =>
      rw [Event.apply, resolvePending_length]

theorem vanishCount_mono (later : List Event) :
    vanishCount clock cfg db events ≤ vanishCount clock cfg db (events ++ later) := by
  induction later using List.reverseRecOn with
  | nil => rw [List.append_nil]
  | append_singleton later e ih =>
      refine ih.trans ?_
      rw [← List.append_assoc, vanishCount, vanishCount, afterEvents_snoc]
      exact apply_vanishCount_le e

theorem vanishCount_le_of_length {pre post pre' post' : List Event} {e e' : Event}
    (h : events = pre ++ e :: post) (h' : events = pre' ++ e' :: post') (hle : pre.length ≤ pre'.length) :
    vanishCount clock cfg db (pre ++ [e]) ≤ vanishCount clock cfg db (pre' ++ [e']) := by
  have hprefix : (pre ++ [e]) <+: (pre' ++ [e']) := by
    refine @List.prefix_of_prefix_length_le _ _ _ events ⟨post, ?_⟩ ⟨post', ?_⟩ ?_
    · rw [h, List.append_assoc, List.singleton_append]
    · rw [h', List.append_assoc, List.singleton_append]
    · rw [List.length_append, List.length_append]
      exact Nat.add_le_add_right hle _
  obtain ⟨later, hlater⟩ := hprefix
  rw [← hlater]
  exact vanishCount_mono later

theorem OwnIdsThroughout.init {e : Event} (h : OwnIdsThroughout clock cfg db (events ++ [e])) :
    OwnIdsThroughout clock cfg db events := by
  intro pre s post hevents
  exact h pre s (post ++ [e]) (by rw [hevents, List.append_assoc, List.cons_append])

theorem OwnIdsThroughout.last {s : SweepInput}
    (h : OwnIdsThroughout clock cfg db (events ++ [.sweep s])) :
    OwnIds (afterEvents clock cfg db events) s := h events s [] rfl

theorem Traced.blank (h : Blank db) : Traced clock cfg db [] where
  live itemId id := by
    refine ⟨?_, fun hshown => absurd hshown Bool.false_ne_true⟩
    rintro ⟨row, hrow⟩
    have hmem := Table.mem_of_lookup hrow.1
    rw [afterEvents, List.foldl_nil, h.seen] at hmem
    exact absurd hmem List.not_mem_nil
  evidence pre s post o hevents := by
    have hlength := congrArg List.length hevents
    rw [List.length_append, List.length_cons] at hlength
    simp at hlength
  liveSeen row hrow := by
    rw [afterEvents, List.foldl_nil, h.seen] at hrow
    exact absurd hrow List.not_mem_nil
  vanishedSeen row hrow := by
    rw [afterEvents, List.foldl_nil, h.vanished] at hrow
    exact absurd hrow List.not_mem_nil

theorem Traced.resolve (h : Traced clock cfg db events) (now : Int) :
    Traced clock cfg db (events ++ [.resolve now]) := by
  have hsweeps : sweepsOf (events ++ [.resolve now]) = sweepsOf events := by
    rw [sweepsOf_append]
    exact List.append_nil _
  have hfacts : SameFacts (afterEvents clock cfg db events)
      (afterEvents clock cfg db (events ++ [.resolve now])) := by
    rw [afterEvents_snoc]
    exact sameFacts_resolvePending _ now
  refine ⟨?_, ?_, ?_, ?_⟩
  · intro itemId id
    rw [hfacts.seen, hsweeps]
    exact h.live itemId id
  · intro pre s post o hevents ho
    rcases split_snoc hevents with ⟨_, _, hlast⟩ | ⟨post', _, hevents'⟩
    · cases hlast
    · exact (h.evidence pre s post' o hevents' ho).sameFacts hfacts
  · rw [hfacts.seen, hsweeps]
    exact h.liveSeen
  · intro row hrow
    rw [hsweeps]
    obtain ⟨row', hrow', hsame⟩ := hfacts.mem hrow
    obtain ⟨hitem, horder, _, _⟩ := fields_of_facts hsame
    rw [hitem, horder]
    exact h.vanishedSeen row' hrow'

theorem Traced.sweep (h : Traced clock cfg db events) {s : SweepInput}
    (hown : OwnIds (afterEvents clock cfg db events) s) :
    Traced clock cfg db (events ++ [.sweep s]) := by
  have hsweeps : sweepsOf (events ++ [.sweep s]) = sweepsOf events ++ [s] := by
    rw [sweepsOf_append]
    rfl
  obtain ⟨gap, status, hvanished, _⟩ := applySweep_vanished clock (afterEvents clock cfg db events) s
  have hpatched : (applySweep clock (afterEvents clock cfg db events) s).1.lastSeenOrders =
      patched s (clock.ts s.sweptAt) (afterEvents clock cfg db events) := rfl
  refine ⟨?_, ?_, ?_, ?_⟩
  · intro itemId id
    rw [afterEvents_snoc, Event.apply, hpatched, hsweeps, shownLast_snoc]
    by_cases hitem : s.itemId = itemId
    · subst hitem
      rw [if_pos rfl]
      exact holds_patched_iff _ id
    · rw [if_neg hitem, ← h.live itemId id]
      exact exists_congr fun row => holds_patched_other _ hown hitem id row
  · intro pre s' post o hevents ho
    rcases split_snoc hevents with ⟨_, hpre, hlast⟩ | ⟨post', _, hevents'⟩
    · cases hlast
      subst hpre
      left
      obtain ⟨hlisting, hnew⟩ := mem_firstSeen.mp ho
      have hfresh : before ((afterEvents clock cfg db events).liveSet s.itemId) o.id = none := by
        rw [before_eq_none_iff]
        intro row hrow
        have hshown := (h.live s.itemId o.id).mp ⟨row, hrow⟩
        rw [hnew] at hshown
        exact Bool.false_ne_true hshown
      have hrow := patched_fresh (clock.ts s.sweptAt) hfresh
      rw [hlisting] at hrow
      rw [afterEvents_snoc, Event.apply]
      exact ⟨_, ⟨hrow, rfl⟩, rfl, ⟨rfl, rfl, rfl⟩, rfl⟩
    · have hbefore := h.evidence pre s' post' o hevents' ho
      rw [afterEvents_snoc, Event.apply]
      refine hbefore.sweep hown ?_
      have hmono := @vanishCount_mono clock cfg db (pre ++ [.sweep s']) post'
      rw [List.append_assoc, List.singleton_append, ← hevents'] at hmono
      exact hmono
  · intro row hrow
    rw [hsweeps]
    rw [afterEvents_snoc, Event.apply, hpatched] at hrow
    have hholds : Holds (patched s (clock.ts s.sweptAt) (afterEvents clock cfg db events)) row.itemId
        row.order.orderId row := ⟨Table.lookup_of_mem hrow, rfl⟩
    by_cases hitem : s.itemId = row.itemId
    · rw [← hitem] at hholds
      obtain ⟨o, hlisting, ⟨hfresh, hnew⟩ | ⟨old, hold, hsame⟩⟩ := patched_cases _ hholds
      · refine ⟨sweepsOf events, s, [], o, rfl, hitem, mem_firstSeen.mpr ⟨?_, ?_⟩, ?_⟩
        · rwa [(SweepInput.listing_mem hlisting).2.2]
        · rw [(SweepInput.listing_mem hlisting).2.2, ← Bool.not_eq_true, ← h.live]
          rintro ⟨old, hold⟩
          exact before_eq_none_iff.mp hfresh old hold
        · rw [hnew]
          exact ⟨⟨rfl, rfl, rfl⟩, rfl⟩
      · have hseen := h.liveSeen old (Table.mem_of_lookup hold.1)
        rw [hold.2] at hseen
        rw [← hitem]
        exact (hseen.congr hsame.offer hsame.firstSeen).later _
    · have hold := (holds_patched_other _ hown hitem _ row).mp hholds
      exact (h.liveSeen row (Table.mem_of_lookup hold.1)).later _
  · intro row hrow
    rw [hsweeps]
    rw [afterEvents_snoc, Event.apply, hvanished] at hrow
    rcases List.mem_append.mp hrow with hold | hnew
    · exact (h.vanishedSeen row hold).later _
    · obtain ⟨hitem, _, hlive⟩ := mem_vanishRows_live _ hnew
      obtain ⟨old, hold, horder⟩ := mem_liveSet.mp hlive
      have hseen := h.liveSeen old (Table.mem_of_lookup hold.1)
      rw [hold.2, ← hitem, horder] at hseen
      exact hseen.later _

/-- The run lemma. -/
theorem Traced.run (hblank : Blank db) (events : List Event)
    (hown : OwnIdsThroughout clock cfg db events) : Traced clock cfg db events := by
  induction events using List.reverseRecOn with
  | nil => exact .blank hblank
  | append_singleton events e ih =>
      cases e with
      | sweep s => exact (ih hown.init).sweep hown.last
      | resolve now => exact (ih hown.init).resolve now

/-- A vanish keeps all but its status. -/
theorem vanish_kept {later : List Event} {i : Nat} {row : VanishedRow}
    (hi : i < vanishCount clock cfg db events)
    (hrow : (afterEvents clock cfg db (events ++ later)).vanishedOrders[i]? = some row) :
    ∃ row', (afterEvents clock cfg db events).vanishedOrders[i]? = some row' ∧ row.facts = row'.facts := by
  induction later using List.reverseRecOn generalizing row with
  | nil =>
      rw [List.append_nil] at hrow
      exact ⟨row, hrow, rfl⟩
  | append_singleton later e ih =>
      rw [← List.append_assoc, afterEvents_snoc] at hrow
      cases e with
      | resolve now =>
          obtain ⟨mid, hmid, hfact⟩ := (sameFacts_resolvePending _ now).getElem? hrow
          obtain ⟨row', hrow', hfact'⟩ := ih hmid
          exact ⟨row', hrow', hfact.trans hfact'⟩
      | sweep s =>
          obtain ⟨gap, status, hvanished, _⟩ :=
            applySweep_vanished clock (afterEvents clock cfg db (events ++ later)) s
          have hlater : i < (afterEvents clock cfg db (events ++ later)).vanishedOrders.length :=
            lt_of_lt_of_le hi (vanishCount_mono later)
          rw [Event.apply, hvanished, List.getElem?_append_left hlater] at hrow
          exact ih hrow

/-- The vanishes a sweep records carry its time and its item. -/
theorem vanish_recorded {pre later : List Event} {s : SweepInput} {i : Nat} {row : VanishedRow}
    (hlow : vanishCount clock cfg db pre ≤ i) (hhigh : i < vanishCount clock cfg db (pre ++ [.sweep s]))
    (hrow : (afterEvents clock cfg db (pre ++ .sweep s :: later)).vanishedOrders[i]? = some row) :
    row.vanishedAt = clock.ts s.sweptAt ∧ row.itemId = s.itemId := by
  rw [← List.singleton_append, ← List.append_assoc] at hrow
  obtain ⟨row', hrow', hfact⟩ := vanish_kept hhigh hrow
  obtain ⟨hitem, _, hvanishedAt, _⟩ := fields_of_facts hfact
  obtain ⟨gap, status, hvanished, _⟩ := applySweep_vanished clock (afterEvents clock cfg db pre) s
  rw [afterEvents_snoc, Event.apply, hvanished, List.getElem?_append_right hlow] at hrow'
  obtain ⟨hitem', hat, _⟩ := mem_vanishRows_live _ (List.mem_of_getElem? hrow')
  exact ⟨hvanishedAt.trans hat, hitem.trans hitem'⟩

/-- Every vanish carries the time of a sweep. -/
theorem vanish_stamped (hblank : Blank db) (events : List Event) :
    ∀ row ∈ (afterEvents clock cfg db events).vanishedOrders,
      ∃ s ∈ sweepsOf events, row.vanishedAt = clock.ts s.sweptAt := by
  induction events using List.reverseRecOn with
  | nil =>
      intro row hrow
      rw [afterEvents, List.foldl_nil, hblank.vanished] at hrow
      exact absurd hrow List.not_mem_nil
  | append_singleton events e ih =>
      intro row hrow
      rw [afterEvents_snoc] at hrow
      rw [sweepsOf_append]
      cases e with
      | resolve now =>
          obtain ⟨row', hrow', hsame⟩ := (sameFacts_resolvePending _ now).mem hrow
          obtain ⟨s, hs, hstamp⟩ := ih row' hrow'
          exact ⟨s, List.mem_append_left _ hs, (fields_of_facts hsame).2.2.1.trans hstamp⟩
      | sweep s =>
          obtain ⟨gap, status, hvanished, _⟩ :=
            applySweep_vanished clock (afterEvents clock cfg db events) s
          rw [Event.apply, hvanished] at hrow
          rcases List.mem_append.mp hrow with hold | hnew
          · obtain ⟨s', hs', hstamp⟩ := ih row hold
            exact ⟨s', List.mem_append_left _ hs', hstamp⟩
          · exact ⟨s, List.mem_append_right _ List.mem_cons_self, (mem_vanishRows_live _ hnew).2.1⟩

end

end Quantframe.Collector
