import Quantframe.Dashboard.Summary

/-!
# The yearly panels

Last year is found 365 days back. A leap year has a day on which that is the same year.
-/

namespace Quantframe.Dashboard

open Lib.Calendar
open Handlers (Transaction)
open Trades (DateTime)
open Utils

def WholeSecond (t : DateTime) : Prop := t % 1000000000 = 0

def utcYear (t : DateTime) : Int := yearOf (dayNumber t)

def inYear (y : Int) (transactions : List Transaction) : List Transaction :=
  transactions.filter fun t => utcYear t.createdAt = y

/-- What the panel of this year counts. -/
def presentYearTransactions (now : DateTime) (transactions : List Transaction) : List Transaction :=
  createdIn transactions (getStartEndOf now .year)

/-- What the panel of last year counts. -/
def lastYearTransactions (now : DateTime) (transactions : List Transaction) : List Transaction :=
  createdIn transactions (getStartEndOf (now - 365 * nanosPerDay) .year)

/-- The panels are about the running year and the year before it. -/
structure ConsecutiveYears (zone : Zone) (now : DateTime) (transactions : List Transaction) : Prop where
  present : presentYearTransactions now transactions = inYear (utcYear now) transactions
  last : lastYearTransactions now transactions = inYear (utcYear now - 1) transactions
  presentSummary : (getTotalSummary zone now now transactions).presentYear.summary =
    .ofTransactions (inYear (utcYear now) transactions)
  lastSummary : (getTotalSummary zone now now transactions).lastYear.summary =
    .ofTransactions (inYear (utcYear now - 1) transactions)
  apart : ∀ tx ∈ presentYearTransactions now transactions, tx ∉ lastYearTransactions now transactions

section Years

variable {zone : Zone} {now date : DateTime} {y : Int} {transactions : List Transaction} {tx : Transaction}

theorem year_period (date : DateTime) : getStartEndOf date .year =
    (midnight (newYear (utcYear date)), midnight (newYear (utcYear date + 1)) - 1000000000) := by
  have hend : atTime (newYear (utcYear date + 1) - 1) 23 59 59 =
      midnight (newYear (utcYear date + 1)) - 1000000000 := by
    simp only [atTime, midnight, nanosPerDay]
    omega
  rw [← hend, ← ofDate_yearEnd, ← ofDate_newYear]
  simp [getStartEndOf, atTime, utcYear]

theorem dayNumber_of_within {t first after : Int} (h : midnight first ≤ t ∧ t ≤ midnight after - 1000000000) :
    first ≤ dayNumber t ∧ dayNumber t < after := by
  rw [dayNumber, nanosPerDay]
  simp only [midnight, nanosPerDay] at h
  omega

/-- Whole seconds leave nothing between the last second of a year and the next year. -/
theorem within_year_iff {t : Int} (h : t % 1000000000 = 0) :
    (midnight (newYear y) ≤ t ∧ t ≤ midnight (newYear (y + 1)) - 1000000000) ↔ yearOf (dayNumber t) = y := by
  rw [yearOf_eq_iff, dayNumber, midnight, midnight, nanosPerDay]
  omega

theorem createdIn_year (hwhole : ∀ tx ∈ transactions, WholeSecond tx.createdAt) (date : DateTime) :
    createdIn transactions (getStartEndOf date .year) = inYear (utcYear date) transactions := by
  refine List.filter_congr fun tx hmem => ?_
  rw [year_period, ← Bool.decide_and]
  exact decide_eq_decide.mpr (within_year_iff (hwhole tx hmem))

theorem dayNumber_year_before (now : DateTime) : dayNumber (now - 365 * nanosPerDay) = dayNumber now - 365 := by
  simp only [dayNumber, nanosPerDay]
  omega

theorem utcYear_year_before (h : leapYearEnd (dayNumber now) = false) :
    utcYear (now - 365 * nanosPerDay) = utcYear now - 1 := by
  rw [utcYear, dayNumber_year_before, yearOf_sub_of_not_leapYearEnd h, utcYear]

theorem utcYear_leapYearEnd (h : ¬ leapYearEnd (dayNumber now) = false) :
    utcYear (now - 365 * nanosPerDay) = utcYear now := by
  rw [utcYear, dayNumber_year_before, yearOf_sub_of_leapYearEnd (Bool.eq_true_of_not_eq_false h), utcYear]

theorem mem_inYear : tx ∈ inYear y transactions ↔ tx ∈ transactions ∧ utcYear tx.createdAt = y := by
  rw [inYear, List.mem_filter, decide_eq_true_eq]

theorem inYear_eq_nil (h : ∀ tx ∈ transactions, utcYear tx.createdAt ≠ y) : inYear y transactions = [] := by
  rw [inYear, List.filter_eq_nil_iff]
  intro tx hmem
  rw [decide_eq_true_eq]
  exact h tx hmem

/-- The panels from what each counts. -/
theorem ConsecutiveYears.of_last (hwhole : ∀ tx ∈ transactions, WholeSecond tx.createdAt)
    (hlast : lastYearTransactions now transactions = inYear (utcYear now - 1) transactions) :
    ConsecutiveYears zone now transactions where
  present := createdIn_year hwhole now
  last := hlast
  presentSummary := congrArg FinancialReport.ofTransactions (createdIn_year hwhole now)
  lastSummary := congrArg FinancialReport.ofTransactions hlast
  apart := by
    intro tx hpresent hboth
    rw [presentYearTransactions, createdIn_year hwhole] at hpresent
    rw [hlast] at hboth
    have hyear := (mem_inYear.mp hpresent).2
    have hbefore := (mem_inYear.mp hboth).2
    omega

/-- The panels are of consecutive years but on 31 December of a leap year. -/
theorem consecutive_years_iff (zone : Zone) (now : DateTime) (transactions : List Transaction)
    (hwhole : ∀ tx ∈ transactions, WholeSecond tx.createdAt) :
    ConsecutiveYears zone now transactions ↔
      leapYearEnd (dayNumber now) = false ∨
        ∀ tx ∈ transactions, utcYear tx.createdAt ≠ utcYear now ∧ utcYear tx.createdAt ≠ utcYear now - 1 := by
  have hlast : lastYearTransactions now transactions = inYear (utcYear (now - 365 * nanosPerDay)) transactions :=
    createdIn_year hwhole _
  constructor
  · intro h
    by_cases hend : leapYearEnd (dayNumber now) = false
    · exact .inl hend
    · refine .inr ?_
      rw [utcYear_leapYearEnd hend] at hlast
      have hsame : inYear (utcYear now) transactions = inYear (utcYear now - 1) transactions := hlast.symm.trans h.last
      intro tx hmem
      constructor
      · intro hyear
        have hother := (mem_inYear.mp (hsame ▸ mem_inYear.mpr ⟨hmem, hyear⟩)).2
        omega
      · intro hyear
        have hother := (mem_inYear.mp (hsame.symm ▸ mem_inYear.mpr ⟨hmem, hyear⟩)).2
        omega
  · rintro (hend | hnone)
    · apply ConsecutiveYears.of_last hwhole
      rw [hlast, utcYear_year_before hend]
    · apply ConsecutiveYears.of_last hwhole
      by_cases hend : leapYearEnd (dayNumber now) = false
      · rw [hlast, utcYear_year_before hend]
      · rw [hlast, utcYear_leapYearEnd hend, inYear_eq_nil fun tx hmem => (hnone tx hmem).1,
          inYear_eq_nil fun tx hmem => (hnone tx hmem).2]

end Years

/-- 1 June 2024. -/
def june : DateTime := midnight (ofDate 2024 6 1)

/-- Noon on 31 December 2024. -/
def newYearsEve : DateTime := atTime (ofDate 2024 12 31) 12 0 0

theorem wholeSecond_june : ∀ tx ∈ [soldAt june], WholeSecond tx.createdAt := by
  intro tx hmem
  rw [List.mem_singleton.mp hmem]
  change june % 1000000000 = 0
  decide

theorem consecutive_years_iff_june : ConsecutiveYears (fun _ => 0) june [soldAt june] :=
  (consecutive_years_iff (fun _ => 0) june [soldAt june] wholeSecond_june).mpr (.inl (by decide))

/-- On the last day of a leap year both panels are of that year. -/
theorem leap_year_twice : ¬ ConsecutiveYears (fun _ => 0) newYearsEve [soldAt june] ∧
    (∀ tx ∈ [soldAt june], WholeSecond tx.createdAt) ∧
    presentYearTransactions newYearsEve [soldAt june] = [soldAt june] ∧
    lastYearTransactions newYearsEve [soldAt june] = [soldAt june] := by
  have hpresent : presentYearTransactions newYearsEve [soldAt june] = [soldAt june] := by decide
  have hlast : lastYearTransactions newYearsEve [soldAt june] = [soldAt june] := by decide
  refine ⟨?_, wholeSecond_june, hpresent, hlast⟩
  intro h
  apply h.apart (soldAt june)
  · rw [hpresent]
    exact List.mem_singleton_self _
  · rw [hlast]
    exact List.mem_singleton_self _

end Quantframe.Dashboard
