import Quantframe.Dashboard.Years
import Quantframe.Utils.Keys

/-!
# What the charts show

The buckets of a period are made in UTC and the transactions are put into buckets by local time.
-/

namespace Quantframe.Dashboard

open Lib Lib.Calendar
open Handlers (Transaction)
open LogParser (Text)
open Trades (DateTime)
open Utils

/-- A period and its buckets. -/
inductive Panel where
  | yearByMonth
  | dayByHour
  | recentDays (days : Int)
  deriving DecidableEq, Repr

def Panel.summary (zone : Zone) (now : DateTime) (transactions : List Transaction) : Panel → Summary
  | .yearByMonth => generateTransactionSummary zone transactions now .year [.year, .month]
  | .dayByHour => getTodaySummary zone now transactions
  | .recentDays days => getRecentDaysSummary zone now transactions days

def monthsOf (year : Int) : List Text := (List.range 12).map fun (i : Nat) => monthKey year (i + 1)

def hoursOfDay : List Text := (List.range 24).map fun (i : Nat) => hourKey i

def daysFrom (first : Int) (n : Nat) : List Text := (List.range n).map fun (i : Nat) => dayKey (first + i)

/-- The buckets of the period, the earliest first. -/
def Panel.buckets (now : DateTime) : Panel → List Text
  | .yearByMonth => monthsOf (utcYear now)
  | .dayByHour => hoursOfDay
  | .recentDays days => daysFrom (dayNumber now - days) (days + 1).toNat

/-- The labels are the buckets, and the values sum to the profit of the report beside them. -/
structure AddsUp (panel : Panel) (zone : Zone) (now : DateTime) (transactions : List Transaction) : Prop where
  labels : (panel.summary zone now transactions).chart.labels = panel.buckets now
  values : (panel.summary zone now transactions).chart.values.sum =
    (panel.summary zone now transactions).summary.totalProfit

def localDay (zone : Zone) (tx : Transaction) : Int := dayNumber (naiveLocal zone tx.createdAt)

/-- From one year to the next the texts of the years ascend. -/
def YearsAscend (first last : Int) : Prop := ∀ y, first ≤ y → y < last → padded 4 y < padded 4 (y + 1)

/-- Every transaction of the period is in one of its buckets by local time too. -/
def Panel.Agrees (zone : Zone) (now : DateTime) (transactions : List Transaction) : Panel → Prop
  | .yearByMonth => ∀ tx ∈ createdIn transactions (getStartEndOf now .year), yearOf (localDay zone tx) = utcYear now
  | .dayByHour => True
  | .recentDays days =>
    (∀ tx ∈ createdIn transactions (recentPeriod now days),
      dayNumber now - days ≤ localDay zone tx ∧ localDay zone tx ≤ dayNumber now) ∧
    YearsAscend (yearOf (dayNumber now - days)) (yearOf (dayNumber now))

theorem yearsAscend_of_four_digits {first last : Int} (hfirst : 0 ≤ first) (hlast : last ≤ 9999) :
    YearsAscend first last := by
  intro y hy hy'
  exact padded_lt (by omega) (Int.lt_succ y) (by omega)

/-! ### Any period -/

section Period

variable {zone : Zone} {transactions : List Transaction} {period : DateTime × DateTime} {levels : List GroupByDate}
  {level : GroupByDate} {buckets : List Text}

theorem sum_summaryOf : (summaryOf zone transactions period levels).chart.values.sum =
    (summaryOf zone transactions period levels).summary.totalProfit := by
  have hpush : ∀ group tx, totalProfit (group ++ [tx]) = totalProfit group + totalProfit [tx] :=
    fun group tx => totalProfit_append group [tx]
  rw [summaryOf, sum_values, total_fillMissingDateKeys totalProfit_nil, groupByDate,
    total_groupBy totalProfit_nil hpush, sum_totalProfit, totalProfit]

/-- The labels are the buckets when these are in order and hold the transactions. -/
theorem labels_summaryOf_iff (hfinest : finest levels = some level)
    (hfilled : (cursors level period.2 period.1).map (generateDateKey · levels) = buckets) :
    (summaryOf zone transactions period levels).chart.labels = buckets ↔
      buckets.Pairwise (· < ·) ∧
        ∀ tx ∈ createdIn transactions period, generateDateKey (naiveLocal zone tx.createdAt) levels ∈ buckets := by
  have hkeys : (fillMissingDateKeys (groupByDate zone (createdIn transactions period) (·.createdAt) levels)
      period.1 period.2 levels).map Prod.fst = buckets.foldl addKey (((createdIn transactions period).map fun tx =>
        generateDateKey (naiveLocal zone tx.createdAt) levels).foldl addKey []) := by
    rw [keys_fillMissingDateKeys hfinest, hfilled, groupByDate, keys_groupBy]
  have hnodup := nodup_foldl_addKey buckets (nodup_foldl_addKey ((createdIn transactions period).map fun tx =>
    generateDateKey (naiveLocal zone tx.createdAt) levels) List.nodup_nil)
  rw [← hkeys] at hnodup
  rw [summaryOf, labels_eq_iff hnodup, hkeys]
  refine and_congr_right fun _ => ?_
  constructor
  · intro h tx hmem
    exact (h _).mp (mem_foldl_addKey.mpr (.inl (mem_foldl_addKey.mpr (.inr (List.mem_map_of_mem hmem)))))
  · intro h key
    rw [mem_foldl_addKey, mem_foldl_addKey]
    constructor
    · rintro ((hnone | hitem) | hbucket)
      · cases hnone
      · obtain ⟨tx, hmem, rfl⟩ := List.mem_map.mp hitem
        exact h tx hmem
      · exact hbucket
    · exact .inr

end Period

/-! ### A year by its months -/

section Year

variable {zone : Zone} {now : DateTime} {transactions : List Transaction} {y m : Int}

theorem nextCursor_month (hm : 1 ≤ m) (hm' : m ≤ 12) :
    nextCursor .month (midnight (ofDate y m 1)) = midnight (ofDate y (m + 1) 1) := by
  obtain ⟨hyear, hmonth, -⟩ := date_firstOfMonth (y := y) hm hm'
  simp only [nextCursor, dayNumber_midnight, hyear, hmonth]
  split
  next hlast =>
    subst hlast
    rw [ofDate_newYear, ← ofDate_nextYear]
    rfl
  next => rfl

theorem cursors_year (y : Int) : cursors .month (midnight (newYear (y + 1)) - 1000000000) (midnight (newYear y)) =
    (List.range 12).map fun (i : Nat) => midnight (ofDate y (i + 1) 1) := by
  have hfirst : midnight (newYear y) = midnight (ofDate y ((0 : Nat) + 1) 1) := by
    rw [← ofDate_newYear]
    rfl
  rw [hfirst]
  apply cursors_eq (fun (i : Nat) => midnight (ofDate y (i + 1) 1))
  · intro i hi
    rw [nextCursor_month (by omega) (by omega)]
    rfl
  · intro i hi
    have hyear := (date_firstOfMonth (y := y) (m := i + 1) (by omega) (by omega)).1
    have hbefore := (yearOf_eq_iff.mp hyear).2
    simp only [midnight, nanosPerDay]
    omega
  · have hlast : ofDate y ((12 : Nat) + 1) 1 = newYear (y + 1) := ofDate_nextYear y
    simp only [hlast]
    omega

theorem pairwise_monthsOf (y : Int) : (monthsOf y).Pairwise (· < ·) := by
  rw [monthsOf, pairwise_map_range]
  intro i hi
  exact monthKey_lt (by omega) (by omega) (by omega)

theorem monthKey_mem_monthsOf (day : Int) : monthKey (yearOf day) (monthOf day) ∈ monthsOf y ↔ yearOf day = y := by
  obtain ⟨hfirst, hlast, -, -⟩ := monthOf_spec day
  rw [monthsOf, List.mem_map]
  constructor
  · rintro ⟨i, hi, hkey⟩
    rw [List.mem_range] at hi
    exact (monthKey_inj (by omega) (by omega) (by omega) (by omega) hkey).1.symm
  · rintro rfl
    refine ⟨(monthOf day - 1).toNat, ?_, ?_⟩
    · rw [List.mem_range]
      omega
    · rw [Int.toNat_of_nonneg (by omega), Int.sub_add_cancel]

theorem year_labels_iff :
    (Panel.summary zone now transactions .yearByMonth).chart.labels = Panel.buckets now .yearByMonth ↔
      Panel.Agrees zone now transactions .yearByMonth := by
  have hfilled : (cursors .month (getStartEndOf now .year).2 (getStartEndOf now .year).1).map
      (generateDateKey · [.year, .month]) = monthsOf (utcYear now) := by
    rw [year_period, cursors_year, List.map_map, monthsOf]
    refine List.map_congr_left fun i hi => ?_
    rw [List.mem_range] at hi
    obtain ⟨hyear, hmonth, -⟩ := date_firstOfMonth (y := utcYear now) (m := i + 1) (by omega) (by omega)
    rw [Function.comp_apply, generateDateKey_month, dayNumber_midnight, hyear, hmonth]
  rw [Panel.summary, generateTransactionSummary, Panel.buckets, labels_summaryOf_iff rfl hfilled,
    and_iff_right (pairwise_monthsOf _), Panel.Agrees]
  refine forall₂_congr fun tx _ => ?_
  rw [generateDateKey_month, monthKey_mem_monthsOf, localDay]

end Year

/-! ### Days -/

section Days

variable {zone : Zone} {now : DateTime} {transactions : List Transaction} {first day : Int} {n : Nat}

theorem day_period (date : DateTime) : getStartEndOf date .day =
    (midnight (dayNumber date), midnight (dayNumber date + 1) - 1000000000) := by
  have hend : atTime (dayNumber date) 23 59 59 = midnight (dayNumber date + 1) - 1000000000 := by
    simp only [atTime, midnight, nanosPerDay]
    omega
  rw [← hend]
  simp [getStartEndOf, atTime, ofDate_eq]

theorem cursors_hours (day : Int) : cursors .hour (midnight (day + 1) - 1000000000) (midnight day) =
    (List.range 24).map fun (i : Nat) => midnight day + i * nanosPerHour := by
  have hfirst : midnight day = midnight day + (0 : Nat) * nanosPerHour := by
    simp only [nanosPerHour]
    omega
  conv_lhs => rw [hfirst]
  apply cursors_eq (fun (i : Nat) => midnight day + i * nanosPerHour)
  · intro i hi
    simp only [nextCursor, nanosPerHour]
    omega
  · intro i hi
    simp only [midnight, nanosPerDay, nanosPerHour]
    omega
  · simp only [midnight, nanosPerDay, nanosPerHour]
    omega

theorem hourOf_bounds (t : Int) : 0 ≤ hourOf t ∧ hourOf t < 24 := by
  simp only [hourOf, nanosPerDay, nanosPerHour]
  omega

theorem day_labels :
    (Panel.summary zone now transactions .dayByHour).chart.labels = Panel.buckets now .dayByHour := by
  have hfilled : (cursors .hour (getStartEndOf now .day).2 (getStartEndOf now .day).1).map
      (generateDateKey · [.hour]) = hoursOfDay := by
    rw [day_period, cursors_hours, List.map_map, hoursOfDay]
    refine List.map_congr_left fun i hi => ?_
    rw [List.mem_range] at hi
    have hhour : hourOf (midnight (dayNumber now) + i * nanosPerHour) = i := by
      simp only [hourOf, midnight, nanosPerDay, nanosPerHour]
      omega
    rw [Function.comp_apply, generateDateKey_hour, hhour]
  rw [Panel.summary, getTodaySummary, generateTransactionSummary, Panel.buckets, labels_summaryOf_iff rfl hfilled]
  constructor
  · rw [hoursOfDay, pairwise_map_range]
    intro i hi
    exact hourKey_lt (by omega) (by omega) (by omega)
  · intro tx _
    obtain ⟨hlow, hhigh⟩ := hourOf_bounds (naiveLocal zone tx.createdAt)
    rw [generateDateKey_hour, hoursOfDay, List.mem_map]
    refine ⟨(hourOf (naiveLocal zone tx.createdAt)).toNat, ?_, ?_⟩
    · rw [List.mem_range]
      omega
    · rw [Int.toNat_of_nonneg hlow]

theorem cursors_days (h : (n : Int) = max 0 (day + 1 - first)) :
    cursors .day (midnight (day + 1) - 1000000000) (midnight first) =
      (List.range n).map fun (i : Nat) => midnight (first + i) := by
  have hfirst : midnight first = midnight (first + (0 : Nat)) := by
    rw [Int.natCast_zero, add_zero]
  rw [hfirst]
  apply cursors_eq (fun (i : Nat) => midnight (first + i))
  · intro i hi
    simp only [nextCursor, midnight, nanosPerDay]
    omega
  · intro i hi
    simp only [midnight, nanosPerDay]
    omega
  · simp only [midnight, nanosPerDay]
    omega

theorem dayKey_mem_daysFrom : dayKey day ∈ daysFrom first n ↔ first ≤ day ∧ day < first + n := by
  rw [daysFrom, List.mem_map]
  constructor
  · rintro ⟨i, hi, hkey⟩
    rw [List.mem_range] at hi
    have hday := dayKey_inj hkey
    omega
  · rintro ⟨hlow, hhigh⟩
    refine ⟨(day - first).toNat, ?_, ?_⟩
    · rw [List.mem_range]
      omega
    · rw [Int.toNat_of_nonneg (by omega), add_sub_cancel]

/-- The keys of days in a row ascend where the texts of their years do. -/
theorem pairwise_daysFrom_iff (h : (n : Int) = max 0 (day + 1 - first)) :
    (daysFrom first n).Pairwise (· < ·) ↔ YearsAscend (yearOf first) (yearOf day) := by
  rw [daysFrom, pairwise_map_range]
  constructor
  · intro hkeys y hfirst hlast
    -- the turn of the year is among the days
    have hstart : first ≤ newYear (y + 1) - 1 := by
      have hbefore := (yearOf_spec first).2
      have hyears := newYear_mono (show yearOf first + 1 ≤ y + 1 by omega)
      omega
    have hend : newYear (y + 1) ≤ day := by
      have hafter := (yearOf_spec day).1
      have hyears := newYear_mono (show y + 1 ≤ yearOf day by omega)
      omega
    obtain ⟨i, hi⟩ := Int.eq_ofNat_of_zero_le (show 0 ≤ newYear (y + 1) - 1 - first by omega)
    have hturn := hkeys i (by omega)
    rw [show first + (i : Int) = newYear (y + 1) - 1 by omega,
      show first + ((i + 1 : Nat) : Int) = newYear (y + 1) - 1 + 1 by omega, dayKey_lt_succ_iff, Int.sub_add_cancel,
      yearOf_yearEnd, yearOf_newYear] at hturn
    rcases hturn with hsame | hless
    · omega
    · exact hless
  · intro hyears i hi
    rw [Nat.cast_succ, ← add_assoc, dayKey_lt_succ_iff]
    rcases yearOf_succ (first + i) with hsame | hnext
    · exact .inl hsame.symm
    · have hlow := yearOf_mono (show first ≤ first + i by omega)
      have hhigh := yearOf_mono (show first + i + 1 ≤ day by omega)
      rw [hnext] at hhigh ⊢
      exact .inr (hyears _ hlow (by omega))

theorem midnight_sub (day days : Int) : midnight day - days * nanosPerDay = midnight (day - days) := by
  simp only [midnight, nanosPerDay]
  omega

theorem recent_labels_iff (days : Int) :
    (Panel.summary zone now transactions (.recentDays days)).chart.labels = Panel.buckets now (.recentDays days) ↔
      Panel.Agrees zone now transactions (.recentDays days) := by
  have hcount : (((days + 1).toNat : Nat) : Int) = max 0 (dayNumber now + 1 - (dayNumber now - days)) := by omega
  have hfilled : (cursors .day (recentPeriod now days).2 (recentPeriod now days).1).map
      (generateDateKey · [.year, .month, .day]) = daysFrom (dayNumber now - days) (days + 1).toNat := by
    rw [recentPeriod, day_period, midnight_sub, cursors_days hcount, List.map_map, daysFrom]
    refine List.map_congr_left fun i _ => ?_
    rw [Function.comp_apply, generateDateKey_day, dayNumber_midnight]
  rw [Panel.summary, getRecentDaysSummary, Panel.buckets, labels_summaryOf_iff rfl hfilled,
    pairwise_daysFrom_iff hcount, and_comm, Panel.Agrees]
  refine and_congr_left fun _ => forall₂_congr fun tx _ => ?_
  rw [generateDateKey_day, dayKey_mem_daysFrom, ← localDay]
  omega

end Days

/-- With its clock in UTC the server's charts agree in the years 0 to 9999. -/
theorem Panel.agrees_utc (panel : Panel) (now : DateTime) (transactions : List Transaction)
    (hyear : utcYear now ≤ 9999) (hfirst : ∀ days, panel = .recentDays days → 0 ≤ yearOf (dayNumber now - days)) :
    panel.Agrees (fun _ => 0) now transactions := by
  have hlocal : ∀ tx, localDay (fun _ => 0) tx = dayNumber tx.createdAt :=
    fun tx => congrArg dayNumber (add_zero tx.createdAt)
  cases panel with
  | yearByMonth =>
      intro tx hmem
      rw [year_period, mem_createdIn] at hmem
      rw [hlocal]
      have hdays := dayNumber_of_within hmem.2
      exact yearOf_eq_iff.mpr ⟨hdays.1, by omega⟩
  | dayByHour => trivial
  | recentDays days =>
      refine ⟨fun tx hmem => ?_, yearsAscend_of_four_digits (hfirst days rfl) hyear⟩
      rw [recentPeriod, day_period, midnight_sub, mem_createdIn] at hmem
      rw [hlocal]
      have hdays := dayNumber_of_within hmem.2
      omega

theorem sum_panel (panel : Panel) (zone : Zone) (now : DateTime) (transactions : List Transaction) :
    (panel.summary zone now transactions).chart.values.sum =
      (panel.summary zone now transactions).summary.totalProfit := by
  cases panel with
  | yearByMonth => exact sum_summaryOf
  | dayByHour => exact sum_summaryOf
  | recentDays days => exact sum_summaryOf

/-- A chart adds up when the local dates of its transactions are in its buckets. The sums of the source are of `i64`:
they are those here modulo 2^64, in the chart as in the report. -/
theorem charts_add_up_iff (panel : Panel) (zone : Zone) (now : DateTime) (transactions : List Transaction) :
    AddsUp panel zone now transactions ↔ panel.Agrees zone now transactions := by
  have hlabels : (panel.summary zone now transactions).chart.labels = panel.buckets now ↔
      panel.Agrees zone now transactions := by
    cases panel with
    | yearByMonth => exact year_labels_iff
    | dayByHour => exact iff_of_true day_labels trivial
    | recentDays days => exact recent_labels_iff days
  constructor
  · intro h
    exact hlabels.mp h.labels
  · intro h
    exact ⟨hlabels.mpr h, sum_panel panel zone now transactions⟩

/-- Half past eleven in the evening of 31 December 2024, in UTC. -/
def lateEvening : DateTime := atTime (ofDate 2024 12 31) 23 30 0

/-- An hour ahead of UTC the sale is of January, which is in neither period. -/
theorem next_year_in_chart : ¬ AddsUp .yearByMonth (fun _ => nanosPerHour) lateEvening [soldAt lateEvening] ∧
    ¬ AddsUp (.recentDays 6) (fun _ => nanosPerHour) lateEvening [soldAt lateEvening] := by
  constructor
  · intro h
    have hlocal := year_labels_iff.mp h.labels (soldAt lateEvening) (by decide)
    exact absurd hlocal (by decide)
  · intro h
    have hlocal := ((recent_labels_iff 6).mp h.labels).1 (soldAt lateEvening) (by decide)
    exact absurd hlocal (by decide)

end Quantframe.Dashboard
