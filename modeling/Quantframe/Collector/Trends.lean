import Mathlib.Data.String.Basic
import Quantframe.Collector.Stats
import Quantframe.Lib.Memo
import Quantframe.Lib.Results
import Quantframe.Lib.Table
import Quantframe.Trades.Types

/-!
# Trend holds and the fits kept for them

`holds` keeps the fits of all series under the latest closed day and the number of its rows. A write
that touches older days only, or a row that is already there, leaves both as they are. Prices are an
opaque type, `fit` and what is made of a fit are parameters. Of the errors of a call, those of a text that
is no date are here; those of the database are not.
-/

namespace Quantframe.Collector.Trends

open Lib
open Trades (Error)

abbrev Day := Int
abbrev Key := String × String

/-- One day of an item's statistics, the day as the market spells it. -/
structure ClosedDay (F : Type) where
  subType : String
  day : String
  volume : Int
  median : Option F
  minPrice : Option Int
  maxPrice : Option Int
  avgPrice : Option F
  waPrice : Option F
  deriving DecidableEq

/-- A row of `closed_stats_daily`. -/
structure ClosedRow (F : Type) extends ClosedDay F where
  itemId : String
  deriving DecidableEq

variable {F : Type}

def ClosedRow.key (r : ClosedRow F) : Key := (r.itemId, r.subType)

/-- The rows in the order of their insertion. -/
abbrev Closed (F : Type) := Table fun r : ClosedRow F => (r.itemId, r.subType, r.day)

/-! ### The writes -/

/-- The columns `ON CONFLICT (item_id, sub_type, day) DO UPDATE` sets. -/
def ClosedRow.excluded (d : ClosedDay F) (r : ClosedRow F) : ClosedRow F :=
  { r with
    volume := d.volume, median := d.median, minPrice := d.minPrice, maxPrice := d.maxPrice
    avgPrice := d.avgPrice, waPrice := d.waPrice }

def upsertDay (itemId : String) (t : Closed F) (d : ClosedDay F) : Closed F :=
  if (t.lookup (itemId, d.subType, d.day)).isNone then t.insertOrReplace ⟨d, itemId⟩
  else t.update (itemId, d.subType, d.day) (ClosedRow.excluded d) fun _ => rfl

/-- The rows written, and the table. -/
def upsertDays (t : Closed F) (itemId : String) (days : List (ClosedDay F)) : Nat × Closed F :=
  (days.length, days.foldl (upsertDay itemId) t)

def closedRetentionDays : Int := 90

def applyRetention (dates : Dates) (t : Closed F) (now : Int) : Nat × Closed F :=
  let old := fun r : ClosedRow F => decide (r.day < dates.format (dateNaive now - closedRetentionDays))
  (t.rows.countP old, t.keep fun r => !old r)

/-! ### The reads -/

def trendWindowDays : Int := 90

structure DailyPoint (F : Type) where
  day : Day
  volume : Int
  median : F
  deriving DecidableEq

def firstDay (latest : Day) : Day := latest - (trendWindowDays - 1)

section Window

variable (dates : Dates) (positive : F → Bool)

/-- The latest closed day and how many rows it has so far. -/
def latestDayRows (t : Closed F) : Except Error (Option (Day × Nat)) :=
  match (t.rows.map fun r => r.day).max? with
  | none => .ok none
  | some day =>
      match dates.parse day with
      | .ok latest => .ok (some (latest, t.rows.countP fun r => r.day = day))
      | .error e => .error ⟨"Trends:LatestDay", e⟩

/-- A row inside the window with a price above 0, and its price. -/
def priced (latest : Day) (r : ClosedRow F) : Option (ClosedRow F × F) :=
  if dates.format (firstDay latest) ≤ r.day ∧ r.day ≤ dates.format latest then
    (r.median.filter positive).map fun median => (r, median)
  else none

def pointOf (r : ClosedRow F × F) : Except Error (Key × DailyPoint F) :=
  match dates.parse r.1.day with
  | .ok day => .ok (r.1.key, ⟨day, r.1.volume, r.2⟩)
  | .error e => .error ⟨"Trends:Points", e⟩

/-- Every key's days with trades in the window ending on `latest`. -/
def loadPoints (t : Closed F) (latest : Day) : Except Error (List (Key × List (DailyPoint F))) := do
  let points ← (t.rows.filterMap (priced dates positive latest)).mapM (pointOf dates)
  pure ((points.map Prod.fst).dedup.map fun key =>
    (key, (points.filter fun p => p.1 = key).map Prod.snd))

end Window

/-! ### Holds -/

variable {Fit Row : Type}

abbrev Fits (Fit : Type) := List (Key × Fit)

/-- What one call makes of the fits: `hold_row` with its quotes, thresholds and names, and the order it
sorts the rows in. -/
structure Request (Fit Row : Type) where
  holdRow : Key → Fit → Option Row
  le : Row → Row → Bool
  qualified : Row → Bool

structure Holds (Row : Type) where
  latestDay : Option Day
  scored : Nat
  qualified : Nat
  rows : List Row

def serve (t : Request Fit Row) : Option (Day × Fits Fit) → Holds Row
  | none => ⟨none, 0, 0, []⟩
  | some (latest, fits) =>
      let rows := (fits.filterMap fun (key, f) => t.holdRow key f).mergeSort t.le
      ⟨some latest, rows.length, rows.countP t.qualified, rows⟩

/-- The closed days and `FITS`. -/
structure State (F Fit : Type) where
  closed : Closed F
  fits : Option ((Day × Nat) × Fits Fit)

section Calls

variable (dates : Dates) (positive : F → Bool) (fit : List (DailyPoint F) → Day → Option Fit)

/-- The fits of every series in the table. -/
def fitAll (t : Closed F) (latest : Day) : Except Error (Fits Fit) :=
  (loadPoints dates positive t latest).map fun series =>
    series.filterMap fun (key, points) => (fit points latest).map fun f => (key, f)

/-- The fits `holds` goes on with: those it kept if the latest day and its rows are the same. -/
def State.currentFits (s : State F Fit) : Except Error (Option (Day × Fits Fit)) × State F Fit :=
  match latestDayRows dates s.closed with
  | .error e => (.error e, s)
  | .ok none => (.ok none, s)
  | .ok (some (latest, dayRows)) =>
      match s.fits.filter fun cached => cached.1 = (latest, dayRows) with
      | some (_, fits) => (.ok (some (latest, fits)), s)
      | none =>
          match fitAll dates positive fit s.closed latest with
          | .error e => (.error e, s)
          | .ok fits => (.ok (some (latest, fits)), { s with fits := some ((latest, dayRows), fits) })

def State.holds (s : State F Fit) (t : Request Fit Row) : Except Error (Holds Row) × State F Fit :=
  let (found, s) := s.currentFits dates positive fit
  (found.map (serve t), s)

/-- What a call returns that computes every fit from the table as it is. -/
def holdsOf (closed : Closed F) (t : Request Fit Row) : Except Error (Holds Row) :=
  match latestDayRows dates closed with
  | .error e => .error e
  | .ok none => .ok (serve t none)
  | .ok (some (latest, _)) => (fitAll dates positive fit closed latest).map fun fits => serve t (some (latest, fits))

end Calls

/-! ### Sequences of calls -/

inductive Write (F : Type) where
  | upsertDays (itemId : String) (days : List (ClosedDay F))
  | applyRetention (now : Int)

def applyWrite (dates : Dates) (t : Closed F) : Write F → Closed F
  | .upsertDays itemId days => (upsertDays t itemId days).2
  | .applyRetention now => (applyRetention dates t now).2

/-- A write, or a call of `holds`. -/
abbrev Call (F : Type) := MemoLabel (Write F)

section Runs

variable (dates : Dates) (positive : F → Bool)

/-- What `holds` returns does not change what it keeps. -/
def State.step (fit : List (DailyPoint F) → Day → Option Fit) : Machine (State F Fit) (Call F)
  | s, .write w => some { s with closed := applyWrite dates s.closed w }
  | s, .read => some (s.currentFits dates positive fit).2

/-- A call of `holds` answers every request, and from the table as it is. -/
def State.Current (fit : List (DailyPoint F) → Day → Option Fit) (s : State F Fit) : Prop :=
  ∀ (Row : Type) (t : Request Fit Row), ∃ holds : Holds Row,
    (s.holds dates positive fit t).1 = .ok holds ∧ holdsOf dates positive fit s.closed t = .ok holds

/-- The latest day and every day of its window with a price above 0 are dates. -/
def Dated (t : Closed F) : Prop :=
  ∃ found, latestDayRows dates t = .ok found ∧
    ∀ latest dayRows, found = some (latest, dayRows) → ∃ series, loadPoints dates positive t latest = .ok series

/-- What fits of the table are kept under. -/
def fitsKey (t : Closed F) : Option (Day × Nat) :=
  match latestDayRows dates t with
  | .ok (some (latest, dayRows)) =>
      match loadPoints dates positive t latest with
      | .ok _ => some (latest, dayRows)
      | .error _ => none
  | _ => none

/-- If the latest day and the number of its rows are those the kept fits were made under, then so are the
points of the window. -/
def Unchanged (w : Watched (Closed F)) : Prop :=
  ∀ t latest dayRows, w.filled = some t → fitsKey dates positive t = some (latest, dayRows) →
    fitsKey dates positive w.source = some (latest, dayRows) →
      loadPoints dates positive t latest = loadPoints dates positive w.source latest

/-! ### The kept fits as a value under a key -/

variable {dates} {positive} {fit : List (DailyPoint F) → Day → Option Fit}

/-- The series of a table whose days are dates. -/
def seriesOf (dates : Dates) (positive : F → Bool) (t : Closed F) (latest : Day) : List (Key × List (DailyPoint F)) :=
  match loadPoints dates positive t latest with
  | .ok series => series
  | .error _ => []

def fitsUnder (dates : Dates) (positive : F → Bool) (fit : List (DailyPoint F) → Day → Option Fit) (t : Closed F)
    (key : Day × Nat) : Fits Fit :=
  (seriesOf dates positive t key.1).filterMap fun (series, points) => (fit points key.1).map fun f => (series, f)

def State.memo (s : State F Fit) : Memo (Closed F) (Day × Nat) (Fits Fit) := ⟨s.closed, s.fits⟩

/-- The key of a table whose days are dates. -/
theorem Dated.cases {t : Closed F} (h : Dated dates positive t) :
    latestDayRows dates t = .ok none ∧ fitsKey dates positive t = none ∨
      ∃ latest dayRows series, latestDayRows dates t = .ok (some (latest, dayRows)) ∧
        loadPoints dates positive t latest = .ok series ∧ fitsKey dates positive t = some (latest, dayRows) := by
  obtain ⟨found, hfound, hseries⟩ := h
  cases found with
  | none =>
      left
      refine ⟨hfound, ?_⟩
      rw [fitsKey, hfound]
  | some key =>
      right
      obtain ⟨latest, dayRows⟩ := key
      obtain ⟨series, hload⟩ := hseries latest dayRows rfl
      refine ⟨latest, dayRows, series, hfound, hload, ?_⟩
      simp only [fitsKey, hfound, hload]

theorem fitAll_eq {t : Closed F} {latest : Day} {series : List (Key × List (DailyPoint F))}
    (h : loadPoints dates positive t latest = .ok series) (dayRows : Nat) :
    fitAll dates positive fit t latest = .ok (fitsUnder dates positive fit t (latest, dayRows)) := by
  rw [fitAll, h, fitsUnder, seriesOf, h]
  rfl

/-- What a call keeps is what the cell does. -/
theorem currentFits_memo (s : State F Fit) :
    (s.currentFits dates positive fit).2.memo =
      (s.memo.read (fitsKey dates positive) (fitsUnder dates positive fit)).2 := by
  have hclosed : s.memo.source = s.closed := rfl
  have hcell : s.memo.cell = s.fits := rfl
  rw [State.currentFits]
  rcases hfound : latestDayRows dates s.closed with e | found
  · have hkey : fitsKey dates positive s.memo.source = none := by rw [fitsKey, hclosed, hfound]
    rw [Memo.read_none hkey]
  · cases found with
    | none =>
        have hkey : fitsKey dates positive s.memo.source = none := by rw [fitsKey, hclosed, hfound]
        rw [Memo.read_none hkey]
    | some key =>
        obtain ⟨latest, dayRows⟩ := key
        cases hload : loadPoints dates positive s.closed latest with
        | error e =>
            have hfit : fitAll dates positive fit s.closed latest = .error e := by
              rw [fitAll, hload]
              rfl
            have hkey : fitsKey dates positive s.memo.source = none := by
              simp only [fitsKey, hclosed, hfound, hload]
            simp only [hfit, Memo.read_none hkey]
            cases s.fits.filter fun cached => cached.1 = (latest, dayRows) with
            | none => rfl
            | some cached => rfl
        | ok series =>
            have hkey : fitsKey dates positive s.memo.source = some (latest, dayRows) := by
              simp only [fitsKey, hclosed, hfound, hload]
            simp only [fitAll_eq hload dayRows, Memo.read_some hkey, hcell]
            cases s.fits.filter fun cached => cached.1 = (latest, dayRows) with
            | none => rfl
            | some cached => rfl

theorem currentFits_dated {s : State F Fit} (h : Dated dates positive s.closed) :
    (s.currentFits dates positive fit).1 =
      .ok ((s.memo.read (fitsKey dates positive) (fitsUnder dates positive fit)).1.map
        fun found => (found.1.1, found.2)) := by
  have hcell : s.memo.cell = s.fits := rfl
  rw [State.currentFits]
  rcases h.cases with ⟨hfound, hkey⟩ | ⟨latest, dayRows, series, hfound, hload, hkey⟩
  · rw [hfound, Memo.read_none hkey, Option.map_none]
  · have hkey : fitsKey dates positive s.memo.source = some (latest, dayRows) := hkey
    simp only [hfound, fitAll_eq hload dayRows, Memo.read_some hkey, hcell]
    cases s.fits.filter fun cached => cached.1 = (latest, dayRows) with
    | none => rfl
    | some cached => rfl

theorem holdsOf_dated {closed : Closed F} (h : Dated dates positive closed) (t : Request Fit Row) :
    holdsOf dates positive fit closed t =
      .ok (serve t ((fresh (fitsKey dates positive) (fitsUnder dates positive fit) closed).map
        fun found => (found.1.1, found.2))) := by
  rw [holdsOf, fresh]
  rcases h.cases with ⟨hfound, hkey⟩ | ⟨latest, dayRows, series, hfound, hload, hkey⟩
  · simp only [hfound, hkey, Option.map_none]
  · simp only [hfound, hkey, fitAll_eq hload dayRows, Option.map_some]
    rfl

/-- A request that the table itself answers. -/
theorem dated_of_holdsOf {closed : Closed F} {t : Request Fit Row} {holds : Holds Row}
    (h : holdsOf dates positive fit closed t = .ok holds) : Dated dates positive closed := by
  rw [holdsOf] at h
  rcases hfound : latestDayRows dates closed with e | found
  · rw [hfound] at h
    cases h
  · refine ⟨found, hfound, ?_⟩
    intro latest dayRows hsome
    rw [hfound, hsome] at h
    cases hload : loadPoints dates positive closed latest with
    | error e =>
        simp only [fitAll, hload] at h
        cases h
    | ok series => exact ⟨series, rfl⟩

/-- A request that asks for the fits themselves. -/
def askFits : Request Fit (Key × Fit) := ⟨fun key f => some (key, f), fun _ _ => true, fun _ => true⟩

theorem serve_askFits {found found' : Option (Day × Fits Fit)} (h : serve askFits found = serve askFits found') :
    found = found' := by
  have hrows : ∀ fits : Fits Fit,
      (fits.filterMap fun (key, f) => askFits.holdRow key f).mergeSort askFits.le = fits := by
    intro fits
    have hall : (fits.filterMap fun (key, f) => askFits.holdRow key f) = fits := List.filterMap_some
    rw [hall]
    exact List.mergeSort_of_pairwise (List.pairwise_of_forall fun _ _ => rfl)
  rcases found with _ | ⟨latest, fits⟩ <;> rcases found' with _ | ⟨latest', fits'⟩
  · rfl
  · cases congrArg Holds.latestDay h
  · cases congrArg Holds.latestDay h
  · have hday : some latest = some latest' := congrArg Holds.latestDay h
    have hfits := congrArg Holds.rows h
    simp only [serve, hrows] at hfits
    rw [Option.some.inj hday, hfits]

/-- A call answers from the table as it is exactly when the days are dates and the cell is right. -/
theorem current_iff (s : State F Fit) :
    s.Current dates positive fit ↔
      Dated dates positive s.memo.source ∧
        (s.memo.read (fitsKey dates positive) (fitsUnder dates positive fit)).1 =
          fresh (fitsKey dates positive) (fitsUnder dates positive fit) s.memo.source := by
  have hholds : ∀ {Row : Type} (t : Request Fit Row),
      (s.holds dates positive fit t).1 = (s.currentFits dates positive fit).1.map (serve t) := fun _ => rfl
  have hkey : ∀ found, (s.memo.read (fitsKey dates positive) (fitsUnder dates positive fit)).1 = some found →
      fitsKey dates positive s.closed = some found.1 := by
    intro found h
    cases hkey : fitsKey dates positive s.closed with
    | none =>
        rw [Memo.read_none hkey] at h
        cases h
    | some key =>
        rw [Memo.read_some hkey] at h
        split at h <;> cases h <;> rfl
  constructor
  · intro h
    obtain ⟨holds, hcall, hnow⟩ := h _ askFits
    have hdated : Dated dates positive s.closed := dated_of_holdsOf hnow
    refine ⟨hdated, ?_⟩
    rw [hholds, currentFits_dated hdated] at hcall
    rw [holdsOf_dated hdated] at hnow
    have hsame := serve_askFits ((Except.ok.inj hcall).trans (Except.ok.inj hnow).symm)
    cases hread : (s.memo.read (fitsKey dates positive) (fitsUnder dates positive fit)).1 with
    | none =>
        rw [hread] at hsame
        exact (Option.map_eq_none_iff.mp hsame.symm).symm
    | some found =>
        rw [hread, fresh, hkey found hread] at hsame
        rw [fresh, State.memo, hkey found hread]
        have hfits := (Prod.mk.inj (Option.some.inj hsame)).2
        exact congrArg some (Prod.ext rfl hfits)
  · intro h Row t
    obtain ⟨hdated, hread⟩ := h
    refine ⟨_, ?_, holdsOf_dated hdated t⟩
    rw [hholds, currentFits_dated hdated, hread]
    rfl

/-- The kept fits are those of the table, whatever is fitted, exactly when the points are the same. -/
theorem unchanged_iff (w : Watched (Closed F)) :
    Unchanged dates positive w ↔ ∀ fitting : (Fit : Type) × (List (DailyPoint F) → Day → Option Fit),
      w.Same (fitsKey dates positive) (fitsUnder dates positive fitting.2) := by
  constructor
  · intro h fitting t key hfilled ht hw
    obtain ⟨latest, dayRows⟩ := key
    rw [fitsUnder, seriesOf, h t latest dayRows hfilled ht hw]
    rfl
  · intro h t latest dayRows hfilled ht hw
    have hseries : ∀ t : Closed F, fitsKey dates positive t = some (latest, dayRows) →
        loadPoints dates positive t latest =
          .ok (fitsUnder dates positive (fun points _ => some points) t (latest, dayRows)) := by
      intro t ht
      rw [fitsKey] at ht
      split at ht
      · next latest' dayRows' hfound =>
          cases hload : loadPoints dates positive t latest' with
          | error e =>
              rw [hload] at ht
              cases ht
          | ok series =>
              rw [hload] at ht
              cases ht
              rw [hload, fitsUnder, seriesOf, hload]
              exact congrArg Except.ok List.filterMap_some.symm
      · cases ht
    rw [hseries t ht, hseries w.source hw]
    exact congrArg Except.ok (h ⟨_, fun points _ => some points⟩ t (latest, dayRows) hfilled ht hw)

theorem current_along_iff (closed : Closed F) (calls : List (Call F)) :
    Along (State.step dates positive fit) (fun s l => l = .read → s.Current dates positive fit)
        ⟨closed, none⟩ calls ↔
      Along (Watched.step (applyWrite dates) (fitsKey dates positive))
        (fun w l => l = .read → Dated dates positive w.source ∧
          w.Same (fitsKey dates positive) (fitsUnder dates positive fit)) ⟨closed, none⟩ calls := by
  refine Iff.trans ?_ (reads_fresh_iff (Dated dates positive) closed calls)
  refine Along.congr_of_simulates (R := fun s m => s.memo = m) ?_ rfl
  intro s m l hm
  subst hm
  cases l with
  | write w => exact ⟨⟨fun _ => nofun, fun _ => nofun⟩, _, _, rfl, rfl, rfl⟩
  | read =>
      have hiff := @current_iff F Fit dates positive fit s
      exact ⟨⟨fun h hr => hiff.mp (h hr), fun h hr => hiff.mpr (h hr)⟩, _, _, rfl, rfl, currentFits_memo s⟩

/-- Whatever `fit` makes of a series' points: in a sequence of calls every `holds` answers, and from the table
as it is, if and only if at each of them the days of the window are dates, and its points are those the kept
fits were made from whenever the latest day and the number of its rows are the same. -/
theorem holds_current_iff (dates : Dates) (positive : F → Bool) (closed : Closed F) (calls : List (Call F)) :
    (∀ (Fit : Type) (fit : List (DailyPoint F) → Day → Option Fit),
      Along (State.step dates positive fit) (fun s l => l = .read → s.Current dates positive fit)
        ⟨closed, none⟩ calls) ↔
      Along (Watched.step (applyWrite dates) (fitsKey dates positive))
        (fun w l => l = .read → Dated dates positive w.source ∧ Unchanged dates positive w)
        ⟨closed, none⟩ calls := by
  have hfits : (∀ (Fit : Type) (fit : List (DailyPoint F) → Day → Option Fit),
        Along (State.step dates positive fit) (fun s l => l = .read → s.Current dates positive fit)
          ⟨closed, none⟩ calls) ↔
      ∀ fitting : (Fit : Type) × (List (DailyPoint F) → Day → Option Fit),
        Along (Watched.step (applyWrite dates) (fitsKey dates positive))
          (fun w l => l = .read → Dated dates positive w.source ∧
            w.Same (fitsKey dates positive) (fitsUnder dates positive fitting.2)) ⟨closed, none⟩ calls :=
    ⟨fun h fitting => (current_along_iff closed calls).mp (h fitting.1 fitting.2),
      fun h Fit fit => (current_along_iff closed calls).mpr (h ⟨Fit, fit⟩)⟩
  rw [hfits, Along.forall_iff]
  simp only [unchanged_iff]
  refine Along.congr fun w l => ?_
  constructor
  · intro h hr
    exact ⟨(h ⟨Unit, fun _ _ => none⟩ hr).1, fun fitting => (h fitting hr).2⟩
  · intro h fitting hr
    exact ⟨(h hr).1, (h hr).2 fitting⟩

end Runs

/-! ### A day that is corrected -/

/-- The index of the week holding the latest day. -/
def lastWeek : Int := (trendWindowDays - 1) / 7

def minWeeks : Nat := 11

def weekOf (latest : Day) (p : DailyPoint F) : Int := lastWeek - (latest - p.day) / 7

/-- What `fit` computes without a price. -/
structure WeekCounts where
  weeks : Nat
  lastWeek : Option Int
  trades : Int
  deriving DecidableEq

def countWeeks (points : List (DailyPoint F)) (latest : Day) : Option WeekCounts :=
  let weekly := (points.map (weekOf latest)).dedup
  if weekly.length < minWeeks then none
  else some ⟨weekly.length, weekly.max?, (points.map DailyPoint.volume).sum⟩

/-- Twelve Mondays, after the first day of the window that ends on the last of them. -/
def mondays : Dates := .ofDays
  [(20635, "2026-07-01"), (20647, "2026-07-13"), (20654, "2026-07-20"), (20661, "2026-07-27"),
    (20668, "2026-08-03"), (20675, "2026-08-10"), (20682, "2026-08-17"), (20689, "2026-08-24"),
    (20696, "2026-08-31"), (20703, "2026-09-07"), (20710, "2026-09-14"), (20717, "2026-09-21"),
    (20724, "2026-09-28")]

def arcaneDay (day : String) (volume : Int) (median : Nat) : ClosedDay Nat :=
  ⟨"rank=5", day, volume, some median, none, none, none, none⟩

/-- A series of twelve weeks that rises. -/
def risingArcane : List (ClosedDay Nat) :=
  [arcaneDay "2026-07-13" 70 100, arcaneDay "2026-07-20" 70 105, arcaneDay "2026-07-27" 70 110,
    arcaneDay "2026-08-03" 70 116, arcaneDay "2026-08-10" 70 122, arcaneDay "2026-08-17" 70 128,
    arcaneDay "2026-08-24" 70 134, arcaneDay "2026-08-31" 70 141, arcaneDay "2026-09-07" 70 148,
    arcaneDay "2026-09-14" 70 155, arcaneDay "2026-09-21" 70 163, arcaneDay "2026-09-28" 70 171]

/-- The first day of the series is fetched again between two calls, with more trades and another median. -/
def correctedDay : List (Call Nat) :=
  [.write (.upsertDays "arcane" risingArcane), .read, .write (.upsertDays "arcane" [arcaneDay "2026-07-13" 160 140]),
    .read]

/-- The second call still counts the trades of before. -/
theorem holds_of_corrected_day :
    ¬Along (State.step mondays (0 < ·) countWeeks) (fun s l => l = .read → s.Current mondays (0 < ·) countWeeks)
      ⟨.empty, none⟩ correctedDay := by
  intro h
  obtain ⟨holds, hcall, hnow⟩ := (((h.2 _ rfl).2 _ rfl).2 _ rfl).1 rfl _ askFits
  have hsame := congrArg (Except.map Holds.rows) (hcall.trans hnow.symm)
  revert hsame
  decide +kernel

end Quantframe.Collector.Trends
