import Quantframe.Collector.Diff
import Quantframe.Lib.Table

/-!
# The collector's tables and the transaction of one sweep

`applySweep` is the committed transaction; when a statement or the commit fails, the database is
left as it was.
-/

namespace Quantframe.Collector

open Lib

/-- An instant with nanoseconds, and how the columns spell it. -/
structure Clock where
  ts : Int → String
  parseTs : String → Option Int

/-- An instant without its fraction of a second. -/
def wholeSeconds (nanos : Int) : Int := nanos / 1000000000 * 1000000000

/-- The column that `ts` writes is read back as the instant without its fraction. -/
def Clock.Reads (clock : Clock) (nanos : Int) : Prop :=
  clock.parseTs (clock.ts nanos) = some (wholeSeconds nanos)

/-- On the valid instants (years of four digits) the columns are read back, and are ordered as the
seconds they spell. -/
structure Clock.Lawful (clock : Clock) (valid : Int → Prop) : Prop where
  reads : ∀ t, valid t → clock.Reads t
  order : ∀ t t', valid t → valid t' → (clock.ts t ≤ clock.ts t' ↔ wholeSeconds t ≤ wholeSeconds t')

theorem Clock.Lawful.lt_iff {clock : Clock} {valid : Int → Prop} (h : clock.Lawful valid) {t t' : Int}
    (ht : valid t) (ht' : valid t') : clock.ts t < clock.ts t' ↔ wholeSeconds t < wholeSeconds t' := by
  rw [← String.not_le, h.order t' t ht' ht, not_le]

theorem wholeSeconds_idem (t : Int) : wholeSeconds (wholeSeconds t) = wholeSeconds t := by
  rw [wholeSeconds, wholeSeconds]
  omega

theorem wholeSeconds_mono {t t' : Int} (h : t ≤ t') : wholeSeconds t ≤ wholeSeconds t' := by
  rw [wholeSeconds, wholeSeconds]
  omega

theorem wholeSeconds_le (t : Int) : wholeSeconds t ≤ t := by
  rw [wholeSeconds]
  omega

/-- A clock read off at some seconds. -/
def Clock.ofSeconds (known : List (Int × String)) : Clock where
  ts t := ((known.find? fun e => e.1 = t.fdiv 1000000000).map Prod.snd).getD ""
  parseTs text := (known.find? fun e => e.2 = text).map fun e => e.1 * 1000000000

def numSeconds (nanos : Int) : Int := nanos.tdiv 1000000000

/-- How the `day` columns spell a day, counted from 1970-01-01, and what `NaiveDate::parse_from_str` with
`%Y-%m-%d` makes of a text. -/
structure Dates where
  format : Int → String
  parse : String → Except String Int

/-- On the valid days (years of four digits) the columns are read back, and are ordered as the days. -/
structure Dates.Lawful (dates : Dates) (valid : Int → Prop) : Prop where
  reads : ∀ day, valid day → dates.parse (dates.format day) = .ok day
  order : ∀ day day', valid day → valid day' → (dates.format day ≤ dates.format day' ↔ day ≤ day')

theorem Dates.Lawful.lt_iff {dates : Dates} {valid : Int → Prop} (h : dates.Lawful valid) {day day' : Int}
    (hday : valid day) (hday' : valid day') : dates.format day < dates.format day' ↔ day < day' := by
  rw [← String.not_le, h.order day' day hday' hday, not_le]

/-- Dates read off at some days. -/
def Dates.ofDays (known : List (Int × String)) : Dates where
  format day := ((known.find? fun e => e.1 = day).map Prod.snd).getD ""
  parse text :=
    match known.find? fun e => e.2 = text with
    | some e => .ok e.1
    | none => .error "input is out of range"

structure LastSeenRow where
  itemId : String
  order : SeenOrder
  updatedAt : String
  deriving DecidableEq, Repr

structure VanishedRow where
  itemId : String
  order : SeenOrder
  quantity : Int
  vanishedAt : String
  gapSeconds : Option Int
  kind : String
  status : String
  deriving DecidableEq, Repr

structure SummaryRow where
  itemId : String
  summary : SweepSummary
  sweptAt : String
  lane : String
  deriving DecidableEq, Repr

structure SweepState where
  itemId : String
  slug : String
  active : Bool
  firstSweptAt : Option String
  lastSweptAt : Option String
  lastAttemptAt : Option String
  expectedIntervalS : Int
  consecutiveErrors : Int
  deriving DecidableEq, Repr

/-- The collector's tables; `last_seen_orders` has the order id as its primary key. -/
structure Tables where
  lastSeenOrders : Table fun row : LastSeenRow => row.order.orderId
  vanishedOrders : List VanishedRow
  sweepSummary : List SummaryRow
  sweepState : Table SweepState.itemId

/-- `exceeds g e` is the comparison of a gap of `g` seconds with the gap factor times `e`. -/
structure SweepInput where
  itemId : String
  lane : String
  orders : List V2Order
  sweptAt : Int
  expectedIntervalS : Int
  exceeds : Int → Int → Bool

structure SweepOutcome where
  orders : Nat
  groups : Nat
  new : Nat
  vanished : Nat
  partials : Nat
  gap : Bool
  deriving DecidableEq, Repr

/-- `SELECT … FROM last_seen_orders WHERE item_id = …`. -/
def Tables.liveSet (db : Tables) (itemId : String) : List SeenOrder :=
  (db.lastSeenOrders.rows.filter fun row => row.itemId = itemId).map LastSeenRow.order

def LastSeenRow.reprice (row : LastSeenRow) (platinum quantity : Int) (updatedAt : String) :
    LastSeenRow :=
  { row with
    order := { row.order with platinum := platinum, quantity := quantity }
    updatedAt := updatedAt }

abbrev LastSeenOrders := Table fun row : LastSeenRow => row.order.orderId

/-- The `UPDATE` of one changed order writes the price and the quantity only. -/
def updateChanged (sweptAt : String) (t : LastSeenOrders) (c : Changed) : LastSeenOrders :=
  t.update c.after.orderId (fun row => row.reprice c.after.platinum c.after.quantity sweptAt)
    fun _ => rfl

def insertNew (itemId sweptAt : String) (t : LastSeenOrders) (o : SeenOrder) : LastSeenOrders :=
  t.insertOrReplace ⟨itemId, o, sweptAt⟩

def deleteVanished (t : LastSeenOrders) (o : SeenOrder) : LastSeenOrders := t.delete o.orderId

/-- The three loops over `last_seen_orders`. -/
def patch (itemId sweptAt : String) (diff : OrderDiff) (t : LastSeenOrders) : LastSeenOrders :=
  let kept := diff.vanished.foldl deleteVanished t
  let updated := diff.changed.foldl (updateChanged sweptAt) kept
  diff.new.foldl (insertNew itemId sweptAt) updated

/-- Seconds since the last stored sweep of the item. -/
def gapSeconds (clock : Clock) (state : Option SweepState) (sweptAt : Int) : Option Int :=
  ((state.bind SweepState.lastSweptAt).bind clock.parseTs).map fun t => numSeconds (sweptAt - t)

def vanishRows (itemId sweptAt : String) (gap : Option Int) (status : String) (diff : OrderDiff) :
    List VanishedRow :=
  (diff.vanished.map fun o => ⟨itemId, o, o.quantity, sweptAt, gap, "full", status⟩) ++
    (diff.changed.filter fun c => 0 < c.quantityDrop).map fun c =>
      ⟨itemId, c.before, c.quantityDrop, sweptAt, gap, "partial", "trade"⟩

def SweepState.swept (state : SweepState) (sweptAt : String) (expectedIntervalS : Int) : SweepState :=
  { state with
    firstSweptAt := state.firstSweptAt.or (some sweptAt)
    lastSweptAt := some sweptAt
    lastAttemptAt := some sweptAt
    expectedIntervalS := expectedIntervalS
    consecutiveErrors := 0 }

/-- Writes one sweep in a single transaction. -/
def applySweep (clock : Clock) (db : Tables) (input : SweepInput) : Tables × SweepOutcome :=
  let sweptAt := clock.ts input.sweptAt
  let state := db.sweepState.lookup input.itemId
  let previousExpected := (state.map SweepState.expectedIntervalS).getD 0
  let gapS := gapSeconds clock state input.sweptAt
  let gap := gapS.any fun g => input.exceeds g (max previousExpected input.expectedIntervalS)
  let previous := db.liveSet input.itemId
  let current := toSeen input.orders sweptAt
  let diff := diffOrders previous current
  let status := if gap then "gap" else "pending"
  let summaries := summarize input.orders
  ({ lastSeenOrders := patch input.itemId sweptAt diff db.lastSeenOrders
     vanishedOrders := db.vanishedOrders ++ vanishRows input.itemId sweptAt gapS status diff
     sweepSummary := db.sweepSummary ++
       summaries.map fun s => ⟨input.itemId, s, sweptAt, input.lane⟩
     sweepState := db.sweepState.update input.itemId
       (fun s => s.swept sweptAt input.expectedIntervalS) fun _ => rfl },
   { orders := current.length
     groups := summaries.length
     new := diff.new.length
     vanished := diff.vanished.length
     partials := (diff.changed.filter fun c => 0 < c.quantityDrop).length
     gap := gap })

/-- One call of `apply_sweep`, and whether its transaction is committed. -/
structure Sweep where
  input : SweepInput
  committed : Bool

def Sweep.apply (clock : Clock) (db : Tables) (s : Sweep) : Tables :=
  if s.committed then (applySweep clock db s.input).1 else db

/-- The tables after a history of sweeps. -/
def afterSweeps (clock : Clock) (db : Tables) (history : List Sweep) : Tables :=
  history.foldl (Sweep.apply clock) db

/-- The books a history has stored. -/
def stored (history : List Sweep) : List SweepInput :=
  (history.filter Sweep.committed).map Sweep.input

theorem afterSweeps_eq_stored (clock : Clock) (db : Tables) (history : List Sweep) :
    afterSweeps clock db history =
      (stored history).foldl (fun db input => (applySweep clock db input).1) db := by
  induction history generalizing db with
  | nil => rfl
  | cons s history ih =>
      rw [afterSweeps, List.foldl_cons, ← afterSweeps, ih, stored, stored]
      cases hs : s.committed with
      | false => rw [Sweep.apply, hs, List.filter_cons_of_neg (by simp [hs])]; rfl
      | true =>
          rw [Sweep.apply, hs, List.filter_cons_of_pos (by simp [hs]), List.map_cons, List.foldl_cons]
          rfl

/-! ### What the three loops do to one row -/

section Patch

variable (itemId sweptAt : String)

theorem lookup_deletes (vanished : List SeenOrder) (t : LastSeenOrders) (k : String) :
    (vanished.foldl deleteVanished t).lookup k =
      if k ∈ vanished.map SeenOrder.orderId then none else t.lookup k := by
  induction vanished generalizing t with
  | nil => rfl
  | cons o vanished ih =>
      rw [List.foldl_cons, ih, deleteVanished, Table.lookup_delete, List.map_cons]
      by_cases hk : k = o.orderId
      · simp [hk]
      · simp [hk]

/-- What an update leaves of a row it may touch. -/
structure SameListing (row row' : LastSeenRow) : Prop where
  itemId : row'.itemId = row.itemId
  orderId : row'.order.orderId = row.order.orderId
  subType : row'.order.subType = row.order.subType
  side : row'.order.side = row.order.side
  userId : row'.order.userId = row.order.userId
  firstSeen : row'.order.firstSeen = row.order.firstSeen

theorem SameListing.refl (row : LastSeenRow) : SameListing row row := ⟨rfl, rfl, rfl, rfl, rfl, rfl⟩

theorem SameListing.trans {row row' row'' : LastSeenRow} (h : SameListing row row')
    (h' : SameListing row' row'') : SameListing row row'' where
  itemId := h'.itemId.trans h.itemId
  orderId := h'.orderId.trans h.orderId
  subType := h'.subType.trans h.subType
  side := h'.side.trans h.side
  userId := h'.userId.trans h.userId
  firstSeen := h'.firstSeen.trans h.firstSeen

theorem SameListing.reprice {row row' : LastSeenRow} (h : SameListing row row') (p q : Int)
    (u : String) : SameListing row (row'.reprice p q u) :=
  ⟨h.itemId, h.orderId, h.subType, h.side, h.userId, h.firstSeen⟩

theorem lookup_update_changed (t : LastSeenOrders) (c : Changed) (k : String) :
    (updateChanged sweptAt t c).lookup k =
      if k = c.after.orderId then
        (t.lookup k).map fun row => row.reprice c.after.platinum c.after.quantity sweptAt
      else t.lookup k :=
  Table.lookup_update _ _ _ _ k

theorem lookup_updates_none {changed : List Changed} {t : LastSeenOrders} {k : String}
    (h : t.lookup k = none) : (changed.foldl (updateChanged sweptAt) t).lookup k = none := by
  induction changed generalizing t with
  | nil => exact h
  | cons c changed ih =>
      rw [List.foldl_cons]
      refine ih ?_
      rw [lookup_update_changed, h, Option.map_none, ite_self]

theorem lookup_updates_some {changed : List Changed} {t : LastSeenOrders} {k : String}
    {row : LastSeenRow} (h : t.lookup k = some row) :
    ∃ row', (changed.foldl (updateChanged sweptAt) t).lookup k = some row' ∧ SameListing row row' := by
  have hgen : ∀ (changed : List Changed) (t : LastSeenOrders) (row' : LastSeenRow),
      t.lookup k = some row' → SameListing row row' →
      ∃ row'', (changed.foldl (updateChanged sweptAt) t).lookup k = some row'' ∧
        SameListing row row'' := by
    intro changed
    induction changed with
    | nil => exact fun _ row' h' hsame => ⟨row', h', hsame⟩
    | cons c changed ih =>
        intro t row' h' hsame
        rw [List.foldl_cons]
        by_cases hk : k = c.after.orderId
        · refine ih _ (row'.reprice c.after.platinum c.after.quantity sweptAt) ?_
            (hsame.reprice _ _ _)
          rw [lookup_update_changed, if_pos hk, h', Option.map_some]
        · refine ih _ row' ?_ hsame
          rw [lookup_update_changed, if_neg hk, h']
  exact hgen changed t row h (.refl row)

/-- Updates that agree on a price and a quantity leave them in the row, unless it has them. -/
theorem lookup_updates_price {changed : List Changed} {t : LastSeenOrders} {k : String}
    {platinum quantity : Int} {row row' : LastSeenRow}
    (hagree : ∀ c ∈ changed, c.after.orderId = k →
      c.after.platinum = platinum ∧ c.after.quantity = quantity)
    (hrow : t.lookup k = some row)
    (hreach : (row.order.platinum = platinum ∧ row.order.quantity = quantity) ∨
      ∃ c ∈ changed, c.after.orderId = k)
    (hrow' : (changed.foldl (updateChanged sweptAt) t).lookup k = some row') :
    row'.order.platinum = platinum ∧ row'.order.quantity = quantity := by
  induction changed generalizing t row with
  | nil =>
      rw [List.foldl_nil, hrow] at hrow'
      cases hrow'
      exact hreach.resolve_right (by simp)
  | cons c changed ih =>
      have hrest := fun c' hc' => hagree c' (List.mem_cons_of_mem _ hc')
      rw [List.foldl_cons] at hrow'
      by_cases hk : c.after.orderId = k
      · have hnext : (updateChanged sweptAt t c).lookup k =
            some (row.reprice c.after.platinum c.after.quantity sweptAt) := by
          rw [lookup_update_changed, if_pos hk.symm, hrow, Option.map_some]
        exact ih hrest hnext (.inl (hagree c List.mem_cons_self hk)) hrow'
      · have hnext : (updateChanged sweptAt t c).lookup k = some row := by
          rw [lookup_update_changed, if_neg (Ne.symm hk), hrow]
        refine ih hrest hnext (hreach.imp_right ?_) hrow'
        rintro ⟨c', hc', hk'⟩
        rcases List.mem_cons.mp hc' with rfl | hc'
        · exact absurd hk' hk
        · exact ⟨c', hc', hk'⟩

/-- An order no change is about keeps its row. -/
theorem lookup_updates_other {changed : List Changed} {t : LastSeenOrders} {k : String}
    (h : ∀ c ∈ changed, c.after.orderId ≠ k) :
    (changed.foldl (updateChanged sweptAt) t).lookup k = t.lookup k := by
  induction changed generalizing t with
  | nil => rfl
  | cons c changed ih =>
      rw [List.foldl_cons, ih fun c' hc' => h c' (List.mem_cons_of_mem _ hc'),
        lookup_update_changed, if_neg (Ne.symm (h c List.mem_cons_self))]

theorem lookup_inserts (new : List SeenOrder) (t : LastSeenOrders) (k : String) :
    (new.foldl (insertNew itemId sweptAt) t).lookup k =
      match new.reverse.find? fun o => o.orderId = k with
      | some o => some ⟨itemId, o, sweptAt⟩
      | none => t.lookup k := by
  induction new generalizing t with
  | nil => rfl
  | cons o new ih =>
      rw [List.foldl_cons, ih, insertNew, Table.lookup_insertOrReplace, List.reverse_cons,
        List.find?_append]
      cases hlater : new.reverse.find? fun o => o.orderId = k with
      | some later => rfl
      | none =>
          rw [Option.none_or]
          by_cases hk : o.orderId = k
          · rw [List.find?_cons_of_pos (by simpa using hk), if_pos hk.symm]
          · rw [List.find?_cons_of_neg (by simpa using hk), if_neg (Ne.symm hk)]
            rfl

end Patch

end Quantframe.Collector
