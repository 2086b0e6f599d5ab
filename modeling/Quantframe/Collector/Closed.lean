import Mathlib.Algebra.Ring.Rat
import Mathlib.Data.String.Basic
import Quantframe.Collector.Trends
import Quantframe.Lib.Sorting

/-!
# Closed-trade dailies as a price basis

What an item's data can contain depends on when it was fetched, so its window is anchored at the daily cutoff
in force at its own fetch. The table keeps a day as a text: the bounds of the load compare texts, and each row
it reads has to name a date.
-/

namespace Quantframe.Collector

open Lib
open Trades (Error)

def windowDays : Int := 7

def warmMinDays : Nat := 5

def freshDays : Int := 3

/-- The operations on `f64` that the closed prices use; `totalLe` is `total_cmp`. -/
structure ClosedFloats (F : Type) extends Floats F where
  add : F → F → F
  mul : F → F → F
  totalLe : F → F → Bool

/-- A row of the table with its day read. -/
structure ClosedRow (F : Type) where
  itemId : String
  subType : String
  day : Int
  volume : Int
  median : Option F
  minPrice : Option Int
  maxPrice : Option Int
  waPrice : Option F
  deriving DecidableEq, Repr

structure ClosedStats (F : Type) where
  itemId : String
  subType : String
  volume : F
  movingAvg : Option F
  median : Option F
  avgPrice : Option F
  minPrice : Option Int
  maxPrice : Option Int
  weekPriceShift : Option F
  rangeProfit : Option F
  days : Nat
  trades : Int
  warm : Bool
  deriving DecidableEq, Repr

variable {F : Type}

structure FetchState where
  itemId : String
  fetchedAt : String
  outcome : String
  deriving DecidableEq, Repr

namespace ClosedRow

def key (r : ClosedRow F) : String × String := (r.itemId, r.subType)

def ofRow (row : Trends.ClosedRow F) (day : Int) : ClosedRow F :=
  ⟨row.itemId, row.subType, day, row.volume, row.median, row.minPrice, row.maxPrice, row.waPrice⟩

def InWindow (today : Int) (r : ClosedRow F) : Prop := today - windowDays ≤ r.day ∧ r.day < today

instance (today : Int) (r : ClosedRow F) : Decidable (r.InWindow today) := inferInstanceAs (Decidable (_ ∧ _))

/-- The day's high minus its low. -/
def range (num : Floats F) (r : ClosedRow F) : Option F :=
  match r.maxPrice, r.minPrice with
  | some high, some low => some (num.ofInt (high - low))
  | _, _ => none

end ClosedRow

/-- The order of the tuples of two texts. -/
def keyLe (a b : String × String) : Bool := decide (a.1 < b.1 ∨ a.1 = b.1 ∧ a.2 ≤ b.2)

section Aggregate

variable (num : ClosedFloats F)

def medianF64 (values : List F) : Option F :=
  let sorted := values.mergeSort num.totalLe
  let mid := sorted.length / 2
  let zero := num.ofInt 0
  if values.isEmpty then none
  else if sorted.length % 2 = 0 then
    some (num.div (num.add (sorted.getD (mid - 1) zero) (sorted.getD mid zero)) (num.ofInt 2))
  else some (sorted.getD mid zero)

def weekPriceShift (days : List (ClosedRow F)) : Option F :=
  let withMedian := days.filter fun r => r.median.isSome
  match withMedian.head?, withMedian.getLast? with
  | some a, some b =>
      if a.day ≠ b.day then some (num.sub (b.median.getD (num.ofInt 0)) (a.median.getD (num.ofInt 0))) else none
  | _, _ => none

/-- The average of the two latest days with a weighted price, or the moving one. -/
def recentAverage (days : List (ClosedRow F)) (movingAvg : Option F) : Option F :=
  let recent := (days.reverse.filter fun r => decide (0 < r.volume) && r.waPrice.isSome).take 2
  let recentVolume := (recent.map ClosedRow.volume).sum
  if 0 < recentVolume then
    some (num.div
      (num.sum (recent.map fun r => num.mul (r.waPrice.getD (num.ofInt 0)) (num.ofInt r.volume)))
      (num.ofInt recentVolume))
  else movingAvg

/-- The stats of one sub-type over its days, in order. -/
def closedStats (key : String × String) (days : List (ClosedRow F)) (warmMinTrades : Nat) : ClosedStats F :=
  let medians := days.filterMap ClosedRow.median
  let trades := (days.map ClosedRow.volume).sum
  let movingAvg := mean num.toFloats medians
  { itemId := key.1
    subType := key.2
    volume := num.div (num.ofInt trades) (num.ofInt windowDays)
    movingAvg := movingAvg
    median := medianF64 num medians
    avgPrice := recentAverage num days movingAvg
    minPrice := (days.filterMap ClosedRow.minPrice).min?
    maxPrice := (days.filterMap ClosedRow.maxPrice).max?
    weekPriceShift := weekPriceShift num days
    rangeProfit := mean num.toFloats (days.filterMap (ClosedRow.range num.toFloats))
    days := days.length
    trades := trades
    warm := decide (warmMinDays ≤ days.length) && decide ((warmMinTrades : Int) ≤ trades) }

/-- The rows of a sub-type by day. -/
def daysOf (rows : List (ClosedRow F)) (key : String × String) : List (ClosedRow F) :=
  (rows.filter fun r => decide (r.key = key)).mergeSort fun a b => decide (a.day ≤ b.day)

/-- Closed stats over the seven days before `today`. -/
def aggregate (rows : List (ClosedRow F)) (today : Int) (warmMinTrades : Nat) : List (ClosedStats F) :=
  let rows := rows.filter fun r => decide (r.InWindow today)
  (distinct keyLe (rows.map ClosedRow.key)).map fun key => closedStats num key (daysOf rows key) warmMinTrades

end Aggregate

/-! ### The load -/

structure ClosedTables (F : Type) where
  closedStatsDaily : Trends.Closed F
  closedFetchState : Table FetchState.itemId

/-- The daily cutoff in force, at half past eight. -/
def cutoff (now : Int) : Int :=
  let today := days (dateNaive now) + hours 8 + minutes 30
  if today ≤ now then today else today - days 1

/-- The item's last fetch succeeded and is fresh. -/
def FetchState.Fresh (clock : Clock) (now : Int) (f : FetchState) : Prop :=
  f.outcome = "ok" ∧ clock.ts (now - days freshDays) ≤ f.fetchedAt

instance (clock : Clock) (now : Int) (f : FetchState) : Decidable (f.Fresh clock now) :=
  inferInstanceAs (Decidable (_ ∧ _))

/-- The coarse bounds on the day. -/
def Coarse (dates : Dates) (now : Int) (r : Trends.ClosedRow F) : Prop :=
  dates.format (dateNaive now - (windowDays + freshDays + 1)) ≤ r.day ∧ r.day < dates.format (dateNaive now)

instance (dates : Dates) (now : Int) (r : Trends.ClosedRow F) : Decidable (Coarse dates now r) :=
  inferInstanceAs (Decidable (_ ∧ _))

section Load

variable (num : ClosedFloats F) (clock : Clock) (dates : Dates)

/-- The joined rows with the time of their fetch, between the coarse bounds. -/
def freshRows (db : ClosedTables F) (now : Int) : List (Trends.ClosedRow F × String) :=
  db.closedStatsDaily.rows.filterMap fun d => do
    let f ← db.closedFetchState.lookup d.itemId
    if f.Fresh clock now ∧ Coarse dates now d then some (d, f.fetchedAt) else none

/-- A row with the day its fetch is anchored on. -/
def anchored (row : Trends.ClosedRow F × String) : Except Error (Int × ClosedRow F) :=
  match clock.parseTs row.2 with
  | none => .error ⟨"ClosedStats:Load", "unparsable fetched_at " ++ row.2⟩
  | some anchor =>
      match dates.parse row.1.day with
      | .ok day => .ok (dateNaive (cutoff anchor), .ofRow row.1 day)
      | .error e => .error ⟨"ClosedStats:Load", e⟩

/-- Closed stats for every item whose last fetch succeeded within `freshDays`. -/
def loadFresh (db : ClosedTables F) (now : Int) (warmMinTrades : Nat) : Except Error (List (ClosedStats F)) := do
  let byAnchor ← (freshRows clock dates db now).mapM (anchored clock dates)
  pure ((distinct (fun a b => decide (a ≤ b)) (byAnchor.map Prod.fst)).flatMap fun anchor =>
    aggregate num ((byAnchor.filter fun r => decide (r.1 = anchor)).map Prod.snd) anchor warmMinTrades)

end Load

/-! ### The prices of one item -/

/-- The stored rows of an item. -/
def ClosedTables.itemRows (db : ClosedTables F) (itemId : String) : List (Trends.ClosedRow F) :=
  db.closedStatsDaily.rows.filter fun r => decide (r.itemId = itemId)

/-- What a load has for an item. -/
def closedPrices (itemId : String) (stats : List (ClosedStats F)) : List (ClosedStats F) :=
  stats.filter fun s => decide (s.itemId = itemId)

/-- The row with its day, if that is a date. -/
def ClosedRow.read (dates : Dates) (row : Trends.ClosedRow F) : Option (ClosedRow F) :=
  match dates.parse row.day with
  | .ok day => some (.ofRow row day)
  | .error _ => none

/-- A day that is a date is spelled as the code spells it. -/
def DaySpelled (dates : Dates) (validDay : Int → Prop) (row : Trends.ClosedRow F) : Prop :=
  ∀ day, dates.parse row.day = .ok day → validDay day ∧ row.day = dates.format day

theorem Dates.Lawful.daySpelled {dates : Dates} {validDay : Int → Prop} (h : dates.Lawful validDay)
    {row : Trends.ClosedRow F} {day : Int} (hday : validDay day) (htext : row.day = dates.format day) :
    DaySpelled dates validDay row := by
  intro day' hread
  rw [htext, h.reads day hday] at hread
  cases hread
  exact ⟨hday, htext⟩

theorem keyLe_orders : Orders keyLe where
  trans a b c hab hbc := by
    simp only [keyLe, decide_eq_true_eq] at hab hbc ⊢
    rcases hab with hab | ⟨hab, hab'⟩
    · rcases hbc with hbc | ⟨hbc, -⟩
      · exact .inl (hab.trans hbc)
      · exact .inl (hbc ▸ hab)
    · rcases hbc with hbc | ⟨hbc, hbc'⟩
      · exact .inl (hab ▸ hbc)
      · exact .inr ⟨hab.trans hbc, hab'.trans hbc'⟩
  total a b := by
    simp only [keyLe, Bool.or_eq_true, decide_eq_true_eq]
    rcases lt_trichotomy a.1 b.1 with h | h | h
    · exact .inl (.inl h)
    · rcases le_total a.2 b.2 with h' | h'
      · exact .inl (.inr ⟨h, h'⟩)
      · exact .inr (.inr ⟨h.symm, h'⟩)
    · exact .inr (.inl h)
  antisymm a b hab hba := by
    simp only [keyLe, decide_eq_true_eq] at hab hba
    rcases hab with hab | ⟨heq, hab⟩
    · rcases hba with hba | ⟨hba, -⟩
      · exact absurd hab hba.asymm
      · exact absurd hba.symm hab.ne
    · rcases hba with hba | ⟨-, hba⟩
      · exact absurd heq.symm hba.ne
      · exact Prod.ext heq (le_antisymm hab hba)

theorem daysOf_filter_item (rows : List (ClosedRow F)) {itemId : String} {key : String × String} (h : key.1 = itemId) :
    daysOf (rows.filter fun r => decide (r.itemId = itemId)) key = daysOf rows key := by
  have hsame : (fun r : ClosedRow F => decide (r.key = key) && decide (r.itemId = itemId)) =
      fun r => decide (r.key = key) := by
    funext r
    by_cases hkey : r.key = key
    · simp [← h, ← hkey, ClosedRow.key]
    · simp [hkey]
  rw [daysOf, List.filter_filter, hsame, daysOf]

/-- The stats of an item come from its own rows. -/
theorem closedPrices_aggregate (num : ClosedFloats F) (rows : List (ClosedRow F)) (itemId : String) (today : Int)
    (w : Nat) :
    closedPrices itemId (aggregate num rows today w) =
      aggregate num (rows.filter fun r => decide (r.itemId = itemId)) today w := by
  have hcomm : (rows.filter fun r => decide (r.itemId = itemId)).filter (fun r => decide (r.InWindow today)) =
      (rows.filter fun r => decide (r.InWindow today)).filter fun r => decide (r.itemId = itemId) := by
    rw [List.filter_filter, List.filter_filter]
    simp only [Bool.and_comm]
  simp only [closedPrices, aggregate, hcomm]
  generalize rows.filter (fun r => decide (r.InWindow today)) = rows
  have hkeys : (rows.filter fun r => decide (r.itemId = itemId)).map ClosedRow.key =
      (rows.map ClosedRow.key).filter fun key => decide (key.1 = itemId) := by
    rw [List.filter_map]
    rfl
  rw [hkeys, ← keyLe_orders.filter_distinct, List.filter_map]
  refine List.map_congr_left fun key hkey => ?_
  have hitem : key.1 = itemId := of_decide_eq_true (List.mem_filter.mp hkey).2
  rw [daysOf_filter_item rows hitem]

theorem ClosedRow.read_some {dates : Dates} {row : Trends.ClosedRow F} {r : ClosedRow F} :
    ClosedRow.read dates row = some r ↔ ∃ day, dates.parse row.day = .ok day ∧ .ofRow row day = r := by
  rw [ClosedRow.read]
  cases dates.parse row.day with
  | ok day =>
      constructor
      · intro h
        exact ⟨day, rfl, Option.some.inj h⟩
      · intro ⟨day', hday, hr⟩
        cases hday
        exact congrArg some hr
  | error e =>
      constructor
      · intro h
        cases h
      · intro ⟨day', hday, hr⟩
        cases hday

/-- Only the rows of the window count. -/
theorem aggregate_filter (num : ClosedFloats F) (dates : Dates) {rows : List (Trends.ClosedRow F)}
    {p : Trends.ClosedRow F → Bool} {today : Int}
    (h : ∀ row ∈ rows, ∀ r, ClosedRow.read dates row = some r → r.InWindow today → p row = true) (w : Nat) :
    aggregate num ((rows.filter p).filterMap (ClosedRow.read dates)) today w =
      aggregate num (rows.filterMap (ClosedRow.read dates)) today w := by
  have hsame : ((rows.filter p).filterMap (ClosedRow.read dates)).filter (fun r => decide (r.InWindow today)) =
      (rows.filterMap (ClosedRow.read dates)).filter fun r => decide (r.InWindow today) := by
    rw [List.filter_filterMap, List.filter_filterMap, List.filterMap_filter]
    refine List.filterMap_congr fun row hrow => ?_
    by_cases hp : p row = true
    · rw [if_pos hp]
    · rw [if_neg hp]
      symm
      rw [Option.filter_eq_none_iff]
      intro r hr hwindow
      exact hp (h row hrow r hr (of_decide_eq_true hwindow))
  simp only [aggregate, hsame]

@[simp] theorem aggregate_nil (num : ClosedFloats F) (today : Int) (w : Nat) : aggregate num [] today w = [] := by
  simp [aggregate, distinct]

section Anchors

variable {clock : Clock} {dates : Dates} {db : ClosedTables F} {now : Int} {itemId : String} {f : FetchState}

/-- The day that a window ends before, from the text of its fetch. -/
def anchorDay (clock : Clock) (fetchedAt : String) : Int :=
  ((clock.parseTs fetchedAt).map fun anchor => dateNaive (cutoff anchor)).getD 0

theorem mem_freshRows {row : Trends.ClosedRow F × String} :
    row ∈ freshRows clock dates db now ↔ row.1 ∈ db.closedStatsDaily.rows ∧
      ∃ f, db.closedFetchState.lookup row.1.itemId = some f ∧ f.Fresh clock now ∧ Coarse dates now row.1 ∧
        row.2 = f.fetchedAt := by
  rw [freshRows, List.mem_filterMap]
  constructor
  · intro ⟨d, hd, hrow⟩
    simp only [Option.bind_eq_bind, Option.bind_eq_some_iff] at hrow
    obtain ⟨f, hf, hrow⟩ := hrow
    split at hrow
    · next hguard =>
        cases hrow
        exact ⟨hd, f, hf, hguard.1, hguard.2, rfl⟩
    · cases hrow
  · intro ⟨hd, f, hf, hfresh, hcoarse, hrow⟩
    refine ⟨row.1, hd, ?_⟩
    simp only [hf, Option.bind_eq_bind, Option.bind_some]
    rw [if_pos ⟨hfresh, hcoarse⟩, ← hrow]

/-- What a load reads of a row of an item. -/
def freshRow (clock : Clock) (dates : Dates) (now : Int) (f : FetchState) (d : Trends.ClosedRow F) :
    Option (Trends.ClosedRow F × String) :=
  if f.Fresh clock now ∧ Coarse dates now d then some (d, f.fetchedAt) else none

/-- The rows of an item that a load reads are those between the coarse bounds, when its fetch is fresh. -/
theorem freshRows_item (hf : db.closedFetchState.lookup itemId = some f) :
    ((freshRows clock dates db now).filter fun row => decide (row.1.itemId = itemId)) =
      (db.itemRows itemId).filterMap (freshRow clock dates now f) := by
  rw [freshRows, ClosedTables.itemRows, List.filter_filterMap, List.filterMap_filter]
  refine List.filterMap_congr fun d _ => ?_
  by_cases hitem : d.itemId = itemId
  · simp only [hitem, hf, Option.bind_eq_bind, Option.bind_some, freshRow]
    split
    · simp only [Option.filter_some, hitem, decide_true, if_true]
    · simp only [Option.filter_none, decide_true, if_true]
  · cases hlookup : db.closedFetchState.lookup d.itemId with
    | none => simp [hitem]
    | some g =>
        simp only [Option.bind_eq_bind, Option.bind_some]
        split
        · simp [hitem]
        · simp [hitem]

/-- Every fetch is stamped with an instant up to `now`. -/
def FetchedBy (clock : Clock) (valid : Int → Prop) (now : Int) (db : ClosedTables F) : Prop :=
  ∀ f ∈ db.closedFetchState.rows, ∃ t, valid t ∧ t ≤ now ∧ f.fetchedAt = clock.ts t

/-- The instant and the two days that the query compares with can be spelled. -/
structure Speaks (valid validDay : Int → Prop) (now : Int) : Prop where
  fresh : valid (now - days freshDays)
  first : validDay (dateNaive now - (windowDays + freshDays + 1))
  today : validDay (dateNaive now)

variable {valid validDay : Int → Prop}

/-- The cutoff in force is of the same day or of the day before. -/
theorem dateNaive_cutoff (t : Int) : dateNaive (cutoff t) = dateNaive t ∨ dateNaive (cutoff t) = dateNaive t - 1 := by
  simp only [cutoff]
  split
  · left
    simp only [dateNaive, days, hours, minutes]
    omega
  · right
    simp only [dateNaive, days, hours, minutes]
    omega

theorem dateNaive_mono {t t' : Int} (h : t ≤ t') : dateNaive t ≤ dateNaive t' := by
  simp only [dateNaive, days]
  omega

theorem dateNaive_wholeSeconds (t : Int) : dateNaive (wholeSeconds t) = dateNaive t := by
  simp only [dateNaive, wholeSeconds, days]
  omega

theorem dateNaive_sub_days (t n : Int) : dateNaive (t - days n) = dateNaive t - n := by
  simp only [dateNaive, days]
  omega

/-- The days of the window of a fresh fetch. -/
theorem days_of_inWindow (hclock : clock.Lawful valid) (hnow : valid (now - days freshDays)) {t : Int}
    (ht : valid t) (hle : t ≤ now) (hfresh : clock.ts (now - days freshDays) ≤ clock.ts t) {r : ClosedRow F}
    (hwindow : r.InWindow (anchorDay clock (clock.ts t))) :
    dateNaive now - (windowDays + freshDays + 1) ≤ r.day ∧ r.day < dateNaive now := by
  have hreads : clock.parseTs (clock.ts t) = some (wholeSeconds t) := hclock.reads t ht
  have hseconds := dateNaive_mono ((hclock.order _ _ hnow ht).mp hfresh)
  rw [dateNaive_wholeSeconds, dateNaive_wholeSeconds, dateNaive_sub_days] at hseconds
  have hlast := dateNaive_mono hle
  have hcutoff := dateNaive_cutoff (wholeSeconds t)
  rw [dateNaive_wholeSeconds] at hcutoff
  rw [anchorDay, hreads, Option.map_some, Option.getD_some] at hwindow
  obtain ⟨hfirst, hbefore⟩ := hwindow
  simp only [windowDays, freshDays] at *
  omega

/-- The window of a fresh fetch lies between the coarse bounds. -/
theorem coarse_of_inWindow (hclock : clock.Lawful valid) (hdates : dates.Lawful validDay)
    (hnow : Speaks valid validDay now) {t : Int} (ht : valid t) (hle : t ≤ now)
    (hfresh : clock.ts (now - days freshDays) ≤ clock.ts t) {row : Trends.ClosedRow F}
    (hspelled : DaySpelled dates validDay row) {r : ClosedRow F} (hread : ClosedRow.read dates row = some r)
    (hwindow : r.InWindow (anchorDay clock (clock.ts t))) : Coarse dates now row := by
  obtain ⟨day, hday, hr⟩ := ClosedRow.read_some.mp hread
  obtain ⟨hvalid, htext⟩ := hspelled day hday
  obtain ⟨hfirst, hlast⟩ := days_of_inWindow hclock hnow.fresh ht hle hfresh hwindow
  rw [← hr] at hfirst hlast
  rw [Coarse, htext, hdates.order _ _ hnow.first hvalid, hdates.lt_iff hvalid hnow.today]
  exact ⟨hfirst, hlast⟩

/-- A row that is read has an anchor and a date. -/
theorem anchored_ok (hclock : clock.Lawful valid) (hfetched : FetchedBy clock valid now db)
    {row : Trends.ClosedRow F × String} (hrow : row ∈ freshRows clock dates db now) {read : Int × ClosedRow F} :
    anchored clock dates row = .ok read ↔
      anchorDay clock row.2 = read.1 ∧ ClosedRow.read dates row.1 = some read.2 := by
  obtain ⟨-, f, hf, -, -, heq⟩ := mem_freshRows.mp hrow
  obtain ⟨t, ht, -, hstamp⟩ := hfetched f (Table.mem_of_lookup hf)
  have hreads : clock.parseTs row.2 = some (wholeSeconds t) := by
    rw [heq, hstamp]
    exact hclock.reads t ht
  rw [anchored, anchorDay, hreads, ClosedRow.read, Option.map_some, Option.getD_some]
  simp only
  cases dates.parse row.1.day with
  | ok day =>
      constructor
      · intro h
        cases h
        exact ⟨rfl, rfl⟩
      · intro ⟨hanchor, hread⟩
        obtain ⟨anchor, r⟩ := read
        cases hanchor
        cases hread
        rfl
  | error e =>
      constructor
      · intro h
        cases h
      · intro ⟨_, h⟩
        cases h

/-- A load fails exactly if a row that it reads has a day that is no date. -/
theorem loadFresh_isOk (hclock : clock.Lawful valid) (hfetched : FetchedBy clock valid now db)
    (num : ClosedFloats F) (w : Nat) :
    (∃ stats, loadFresh num clock dates db now w = .ok stats) ↔
      ∀ row ∈ freshRows clock dates db now, ∃ day, dates.parse row.1.day = .ok day := by
  have hload : (∃ stats, loadFresh num clock dates db now w = .ok stats) ↔
      ∃ byAnchor, (freshRows clock dates db now).mapM (anchored clock dates) = .ok byAnchor := by
    rw [loadFresh]
    cases (freshRows clock dates db now).mapM (anchored clock dates) with
    | ok byAnchor => exact ⟨fun _ => ⟨byAnchor, rfl⟩, fun _ => ⟨_, rfl⟩⟩
    | error e =>
        constructor
        · intro ⟨_, h⟩
          cases h
        · intro ⟨_, h⟩
          cases h
  rw [hload, mapM_isOk]
  refine forall₂_congr fun row hrow => ?_
  constructor
  · intro ⟨read, h⟩
    obtain ⟨day, hday, -⟩ := ClosedRow.read_some.mp ((anchored_ok hclock hfetched hrow).mp h).2
    exact ⟨day, hday⟩
  · intro ⟨day, hday⟩
    exact ⟨⟨anchorDay clock row.2, .ofRow row.1 day⟩,
      (anchored_ok hclock hfetched hrow).mpr ⟨rfl, ClosedRow.read_some.mpr ⟨day, hday, rfl⟩⟩⟩

/-- The rows of an item among those anchored on a day. -/
def itemRowsAt (clock : Clock) (dates : Dates) (db : ClosedTables F) (now : Int) (itemId : String) (anchor : Int) :
    List (ClosedRow F) :=
  (((freshRows clock dates db now).filter fun row => decide (row.1.itemId = itemId)).filter fun row =>
    decide (anchorDay clock row.2 = anchor)).filterMap fun row => ClosedRow.read dates row.1

/-- What a load that succeeds groups by anchor. -/
theorem mapM_anchored (hclock : clock.Lawful valid) (hfetched : FetchedBy clock valid now db)
    {byAnchor : List (Int × ClosedRow F)}
    (h : (freshRows clock dates db now).mapM (anchored clock dates) = .ok byAnchor) :
    byAnchor = (freshRows clock dates db now).filterMap fun row =>
      (ClosedRow.read dates row.1).map fun r => (anchorDay clock row.2, r) := by
  refine eq_filterMap_of_mapM h fun row hrow read hread => ?_
  obtain ⟨hanchor, hr⟩ := (anchored_ok hclock hfetched hrow).mp hread
  rw [hr, hanchor, Option.map_some]

theorem itemRowsAt_eq (clock : Clock) (dates : Dates) (db : ClosedTables F) (now : Int) (itemId : String)
    (anchor : Int) :
    (((((freshRows clock dates db now).filterMap fun row =>
      (ClosedRow.read dates row.1).map fun r => (anchorDay clock row.2, r)).filter fun r =>
        decide (r.1 = anchor)).map Prod.snd).filter fun r => decide (r.itemId = itemId)) =
      itemRowsAt clock dates db now itemId anchor := by
  rw [itemRowsAt, List.filter_filterMap, List.map_filterMap, List.filter_filterMap, List.filter_filter,
    List.filterMap_filter]
  refine List.filterMap_congr fun row _ => ?_
  cases hread : ClosedRow.read dates row.1 with
  | none => simp
  | some r =>
      obtain ⟨day, -, hr⟩ := ClosedRow.read_some.mp hread
      have hitem : r.itemId = row.1.itemId := by
        rw [← hr]
        rfl
      by_cases hanchor : anchorDay clock row.2 = anchor <;> by_cases hsame : row.1.itemId = itemId <;>
        simp [hanchor, hsame, hitem]

theorem itemRowsAt_fresh (hf : db.closedFetchState.lookup itemId = some f) (hfresh : f.Fresh clock now) (anchor : Int) :
    itemRowsAt clock dates db now itemId anchor =
      if anchorDay clock f.fetchedAt = anchor then
        ((db.itemRows itemId).filter fun r => decide (Coarse dates now r)).filterMap (ClosedRow.read dates)
      else [] := by
  have hrows (rows : List (Trends.ClosedRow F)) : rows.filterMap (freshRow clock dates now f) =
      (rows.filter fun r => decide (Coarse dates now r)).map fun r => (r, f.fetchedAt) := by
    induction rows with
    | nil => rfl
    | cons r rows ih => by_cases hr : Coarse dates now r <;> simp [freshRow, hfresh, hr, ih]
  rw [itemRowsAt, freshRows_item hf, hrows, List.filter_map, List.filterMap_map]
  split
  · next hanchor => simp [Function.comp_def, hanchor]
  · next hanchor => simp [Function.comp_def, hanchor]

theorem itemRowsAt_stale (h : ∀ f, db.closedFetchState.lookup itemId = some f → ¬ f.Fresh clock now) (anchor : Int) :
    itemRowsAt clock dates db now itemId anchor = [] := by
  have hnone : (freshRows clock dates db now).filter (fun row => decide (row.1.itemId = itemId)) = [] := by
    refine List.filter_eq_nil_iff.mpr fun row hrow hitem => ?_
    obtain ⟨-, f, hf, hfresh, -, -⟩ := mem_freshRows.mp hrow
    rw [of_decide_eq_true hitem] at hf
    exact h f hf hfresh
  rw [itemRowsAt, hnone]
  rfl

/-- What a load has for an item, by the days that fetches are anchored on. -/
theorem closedPrices_byAnchor (hclock : clock.Lawful valid) (hfetched : FetchedBy clock valid now db)
    {num : ClosedFloats F} {w : Nat} {stats : List (ClosedStats F)}
    (hload : loadFresh num clock dates db now w = .ok stats) :
    ∃ anchors : List Int, anchors.Nodup ∧
      (∀ itemId anchor, anchor ∉ anchors → itemRowsAt clock dates db now itemId anchor = []) ∧
      ∀ itemId, closedPrices itemId stats =
        anchors.flatMap fun anchor => aggregate num (itemRowsAt clock dates db now itemId anchor) anchor w := by
  rw [loadFresh] at hload
  cases hread : (freshRows clock dates db now).mapM (anchored clock dates) with
  | error e =>
      rw [hread] at hload
      cases hload
  | ok byAnchor =>
      rw [hread] at hload
      cases hload
      have hrows := itemRowsAt_eq clock dates db now
      rw [← mapM_anchored hclock hfetched hread] at hrows
      refine ⟨distinct (fun a b => decide (a ≤ b)) (byAnchor.map Prod.fst), nodup_distinct _ _, ?_, ?_⟩
      · intro itemId anchor hnot
        rw [mem_distinct] at hnot
        have hnone : byAnchor.filter (fun r => decide (r.1 = anchor)) = [] :=
          List.filter_eq_nil_iff.mpr fun r hr hanchor => hnot (of_decide_eq_true hanchor ▸ List.mem_map_of_mem hr)
        rw [← hrows, hnone]
        rfl
      · intro itemId
        rw [closedPrices, List.filter_flatMap]
        refine List.flatMap_congr fun anchor _ => ?_
        rw [← hrows]
        exact closedPrices_aggregate ..

/-- The prices that an item's own rows and its own fetch give. -/
def ownPrices (num : ClosedFloats F) (clock : Clock) (dates : Dates) (w : Nat) (db : ClosedTables F) (now : Int)
    (itemId : String) : List (ClosedStats F) :=
  match db.closedFetchState.lookup itemId with
  | some f =>
      if f.Fresh clock now then
        aggregate num ((db.itemRows itemId).filterMap (ClosedRow.read dates)) (anchorDay clock f.fetchedAt) w
      else []
  | none => []

/-- What a load has for an item comes from the stored rows of the item and the day its fetch is anchored on. -/
theorem closedPrices_loadFresh (hclock : clock.Lawful valid) (hdates : dates.Lawful validDay)
    (hnow : Speaks valid validDay now) (hfetched : FetchedBy clock valid now db) {num : ClosedFloats F} {w : Nat}
    {stats : List (ClosedStats F)} (hload : loadFresh num clock dates db now w = .ok stats) {itemId : String}
    (hspelled : ∀ row ∈ db.itemRows itemId, DaySpelled dates validDay row) :
    closedPrices itemId stats = ownPrices num clock dates w db now itemId := by
  obtain ⟨anchors, hnodup, habsent, hprices⟩ := closedPrices_byAnchor hclock hfetched hload
  have hstale : (∀ f, db.closedFetchState.lookup itemId = some f → ¬ f.Fresh clock now) →
      closedPrices itemId stats = [] := by
    intro h
    rw [hprices]
    exact List.flatMap_eq_nil_iff.mpr fun anchor _ => by rw [itemRowsAt_stale h, aggregate_nil]
  rw [ownPrices]
  cases hf : db.closedFetchState.lookup itemId with
  | none =>
      refine hstale fun f h => ?_
      rw [hf] at h
      cases h
  | some f =>
      by_cases hfresh : f.Fresh clock now
      · have hown (anchor : Int) : itemRowsAt clock dates db now itemId anchor =
            if anchorDay clock f.fetchedAt = anchor then
              ((db.itemRows itemId).filter fun r => decide (Coarse dates now r)).filterMap (ClosedRow.read dates)
            else [] := itemRowsAt_fresh hf hfresh anchor
        rw [hprices, flatMap_eq_of_nodup (a := anchorDay clock f.fetchedAt) hnodup ?_ ?_]
        · obtain ⟨t, ht, hle, hstamp⟩ := hfetched f (Table.mem_of_lookup hf)
          have hcoarse : ∀ row ∈ db.itemRows itemId, ∀ r, ClosedRow.read dates row = some r →
              r.InWindow (anchorDay clock f.fetchedAt) → decide (Coarse dates now row) = true := by
            intro row hrow r hread hwindow
            rw [hstamp] at hwindow
            exact decide_eq_true (coarse_of_inWindow hclock hdates hnow ht hle (hstamp ▸ hfresh.2)
              (hspelled row hrow) hread hwindow)
          simp only [hown, if_true, hfresh]
          exact aggregate_filter num dates hcoarse w
        · intro anchor _ hother
          simp only [hown, if_neg (Ne.symm hother), aggregate_nil]
        · intro hnot
          simp only [habsent itemId _ hnot, aggregate_nil]
      · simp only [hfresh, if_false]
        exact hstale fun g hg => by
          cases hf.symm.trans hg
          exact hfresh

end Anchors

/-- A load fails exactly if a row that it reads has a day that is no date. What a load that succeeds has for an
item whose dates are spelled as usual depends on the item's stored rows and on the day its fetch is anchored on.
The coarse bounds remove none of its window, and it is the same at every `now` at which the fetch is fresh. -/
theorem closed_prices_anchored (num : ClosedFloats F) (clock : Clock) (valid : Int → Prop)
    (hclock : clock.Lawful valid) (dates : Dates) (validDay : Int → Prop) (hdates : dates.Lawful validDay) (w : Nat)
    {db : ClosedTables F} {now : Int} (hnow : Speaks valid validDay now) (hfetched : FetchedBy clock valid now db) :
    ((∃ stats, loadFresh num clock dates db now w = .ok stats) ↔
      ∀ row ∈ db.closedStatsDaily.rows, ∀ f, db.closedFetchState.lookup row.itemId = some f → f.Fresh clock now →
        Coarse dates now row → ∃ day, dates.parse row.day = .ok day) ∧
    (∀ stats, loadFresh num clock dates db now w = .ok stats → ∀ itemId,
      (∀ row ∈ db.itemRows itemId, DaySpelled dates validDay row) →
        closedPrices itemId stats = ownPrices num clock dates w db now itemId) ∧
    (∀ itemId f, db.closedFetchState.lookup itemId = some f → f.Fresh clock now → ∀ row : Trends.ClosedRow F,
      DaySpelled dates validDay row → ∀ r, ClosedRow.read dates row = some r →
        r.InWindow (anchorDay clock f.fetchedAt) → Coarse dates now row) ∧
    ∀ (db' : ClosedTables F) now' itemId f stats stats', Speaks valid validDay now' →
      FetchedBy clock valid now' db' → db.closedFetchState.lookup itemId = some f →
      db'.closedFetchState.lookup itemId = some f → db'.itemRows itemId = db.itemRows itemId →
      (∀ row ∈ db.itemRows itemId, DaySpelled dates validDay row) → f.Fresh clock now → f.Fresh clock now' →
      loadFresh num clock dates db now w = .ok stats → loadFresh num clock dates db' now' w = .ok stats' →
        closedPrices itemId stats' = closedPrices itemId stats := by
  refine ⟨?_, fun stats hload itemId => closedPrices_loadFresh hclock hdates hnow hfetched hload, ?_, ?_⟩
  · rw [loadFresh_isOk hclock hfetched]
    constructor
    · intro h row hrow f hf hfresh hcoarse
      exact h (row, f.fetchedAt) (mem_freshRows.mpr ⟨hrow, f, hf, hfresh, hcoarse, rfl⟩)
    · intro h row hrow
      obtain ⟨hmem, f, hf, hfresh, hcoarse, -⟩ := mem_freshRows.mp hrow
      exact h row.1 hmem f hf hfresh hcoarse
  · intro itemId f hf hfresh row hspelled r hread hwindow
    obtain ⟨t, ht, hle, hstamp⟩ := hfetched f (Table.mem_of_lookup hf)
    rw [hstamp] at hwindow
    exact coarse_of_inWindow hclock hdates hnow ht hle (hstamp ▸ hfresh.2) hspelled hread hwindow
  · intro db' now' itemId f stats stats' hnow' hfetched' hf hf' hrows hspelled hfresh hfresh' hload hload'
    have hspelled' : ∀ row ∈ db'.itemRows itemId, DaySpelled dates validDay row := hrows ▸ hspelled
    rw [closedPrices_loadFresh hclock hdates hnow hfetched hload hspelled,
      closedPrices_loadFresh hclock hdates hnow' hfetched' hload' hspelled', ownPrices, ownPrices, hf, hf']
    simp only [hfresh, hfresh', if_true, hrows]

/-! ### A fetch of two days ago -/

def ratClosed : ClosedFloats Rat where
  ofInt n := n
  sum := List.sum
  sub := (· - ·)
  div := (· / ·)
  add := (· + ·)
  mul := (· * ·)
  totalLe a b := decide (a ≤ b)

def octoberClock : Clock := .ofSeconds
  [(1790650800, "2026-09-29T03:00:00Z"), (1790784000, "2026-09-30T16:00:00Z")]

def OctoberSpelled (t : Int) : Prop := t ∈ [days 20725 + hours 3, days 20726 + hours 16]

def octoberDates : Dates := .ofDays
  [(20717, "2026-09-21"), (20724, "2026-09-28"), (20725, "2026-09-29"), (20726, "2026-09-30"), (20728, "2026-10-02")]

def OctoberDay (day : Int) : Prop := day ∈ [20717, 20724, 20725, 20726, 20728]

theorem octoberClock_lawful : octoberClock.Lawful OctoberSpelled where
  reads := by
    unfold OctoberSpelled Clock.Reads
    decide +kernel
  order := by
    have h : ∀ t, OctoberSpelled t → ∀ t', OctoberSpelled t' →
        (octoberClock.ts t ≤ octoberClock.ts t' ↔ wholeSeconds t ≤ wholeSeconds t') := by
      unfold OctoberSpelled
      decide +kernel
    exact fun t t' ht ht' => h t ht t' ht'

theorem octoberDates_lawful : octoberDates.Lawful OctoberDay where
  reads := by
    unfold OctoberDay
    decide +kernel
  order := by
    have h : ∀ day, OctoberDay day → ∀ day', OctoberDay day' →
        (octoberDates.format day ≤ octoberDates.format day' ↔ day ≤ day') := by
      unfold OctoberDay
      decide +kernel
    exact fun day day' hday hday' => h day hday day' hday'

def closedOn (itemId day : String) : Trends.ClosedRow Rat :=
  ⟨⟨"", day, 4, some 50, some 45, some 55, some 50, some 50⟩, itemId⟩

/-- Fetched in the afternoon of the thirtieth: the days before it are in its window, it is not. -/
def octoberTables : ClosedTables Rat where
  closedStatsDaily := ⟨["2026-09-28", "2026-09-29", "2026-09-30"].map (closedOn "item1"), by decide +kernel⟩
  closedFetchState := ⟨[⟨"item1", "2026-09-30T16:00:00Z", "ok"⟩], by decide⟩

theorem closed_prices_anchored_october : ∃ stats,
    loadFresh ratClosed octoberClock octoberDates octoberTables (days 20728 + hours 3) 10 = .ok stats ∧
      closedPrices "item1" stats = aggregate ratClosed
        (octoberTables.closedStatsDaily.rows.filterMap (ClosedRow.read octoberDates)) 20726 10 := by
  obtain ⟨hload, hprices, -, -⟩ := @closed_prices_anchored Rat ratClosed octoberClock OctoberSpelled
    octoberClock_lawful octoberDates OctoberDay octoberDates_lawful 10 octoberTables (days 20728 + hours 3)
    ⟨by unfold OctoberSpelled; decide +kernel, by unfold OctoberDay; decide +kernel,
      by unfold OctoberDay; decide +kernel⟩
    (by
      intro f hf
      cases List.mem_singleton.mp hf
      exact ⟨days 20726 + hours 16, by unfold OctoberSpelled; decide +kernel, by decide +kernel, by decide +kernel⟩)
  have hdays : ∀ row ∈ octoberTables.closedStatsDaily.rows,
      ∃ day, OctoberDay day ∧ row.day = octoberDates.format day := by
    intro row hrow
    simp only [octoberTables, List.map_cons, List.map_nil, List.mem_cons, List.not_mem_nil, or_false] at hrow
    rcases hrow with hrow | hrow | hrow
    · exact ⟨20724, by unfold OctoberDay; decide, by rw [hrow]; decide +kernel⟩
    · exact ⟨20725, by unfold OctoberDay; decide, by rw [hrow]; decide +kernel⟩
    · exact ⟨20726, by unfold OctoberDay; decide, by rw [hrow]; decide +kernel⟩
  have hitem : octoberTables.itemRows "item1" = octoberTables.closedStatsDaily.rows := by decide +kernel
  have hfetch : octoberTables.closedFetchState.lookup "item1" = some ⟨"item1", "2026-09-30T16:00:00Z", "ok"⟩ := by
    decide +kernel
  have hfresh : FetchState.Fresh octoberClock (days 20728 + hours 3) ⟨"item1", "2026-09-30T16:00:00Z", "ok"⟩ := by
    decide +kernel
  have hanchor : anchorDay octoberClock "2026-09-30T16:00:00Z" = 20726 := by decide +kernel
  obtain ⟨stats, hstats⟩ := hload.mpr (by
    intro row hrow _ _ _ _
    obtain ⟨day, hday, htext⟩ := hdays row hrow
    exact ⟨day, htext ▸ octoberDates_lawful.reads day hday⟩)
  refine ⟨stats, hstats, ?_⟩
  rw [hprices stats hstats "item1" (by
    intro row hrow
    obtain ⟨day, hday, htext⟩ := hdays row (hitem ▸ hrow)
    exact octoberDates_lawful.daySpelled hday htext), ownPrices, hfetch]
  simp only [hfresh, if_true, hanchor, hitem]

/-- Another item has a day that no calendar has. -/
def thirtyFirst : ClosedTables Rat where
  closedStatsDaily := octoberTables.closedStatsDaily.insertOrReplace (closedOn "item2" "2026-09-31")
  closedFetchState := octoberTables.closedFetchState.insertOrReplace ⟨"item2", "2026-09-30T16:00:00Z", "ok"⟩

/-- The rows and the fetch of an item are the same, but the load of the second table fails. -/
theorem wrong_date_fails_load :
    (thirtyFirst.itemRows "item1" = octoberTables.itemRows "item1" ∧
      thirtyFirst.closedFetchState.lookup "item1" = octoberTables.closedFetchState.lookup "item1") ∧
    (loadFresh ratClosed octoberClock octoberDates octoberTables (days 20728 + hours 3) 10).map
      (fun stats => (closedPrices "item1" stats).length) = .ok 1 ∧
    loadFresh ratClosed octoberClock octoberDates thirtyFirst (days 20728 + hours 3) 10 =
      .error ⟨"ClosedStats:Load", "input is out of range"⟩ := by
  exact ⟨⟨by decide +kernel, by decide +kernel⟩, by decide +kernel, by decide +kernel⟩

end Quantframe.Collector
