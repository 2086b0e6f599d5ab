import Mathlib.Data.List.Lex
import Quantframe.Handlers.Records
import Quantframe.Utils.Grouping

/-!
# The dashboard

Reports over transactions, the graphs beside them, and the panels made of both.
-/

namespace Quantframe.Dashboard

open Handlers (Transaction)
open LogParser (Text)
open Trades (DateTime)
open Utils

/-! ### Reports -/

/-- The figures of a report. Its averages and percentages are floats made of these. -/
structure FinancialReport where
  totalTransactions : Nat
  totalProfit : Int
  saleCount : Nat
  highestRevenue : Int
  lowestRevenue : Int
  revenue : Int
  purchasesCount : Nat
  highestExpense : Int
  lowestExpense : Int
  expenses : Int
  totalCredits : Int
  deriving DecidableEq, Repr

def FinancialReport.ofTransactions (transactions : List Transaction) : FinancialReport :=
  let purchases := transactions.filter fun t => t.transactionType = .purchase
  let expenses := (purchases.map (·.price)).sum
  let sales := transactions.filter fun t => t.transactionType = .sale
  let revenue := (sales.map (·.price)).sum
  { totalTransactions := transactions.length
    totalProfit := revenue - expenses
    saleCount := sales.length
    highestRevenue := (sales.map (·.price)).max?.getD 0
    lowestRevenue := (sales.map (·.price)).min?.getD 0
    revenue := revenue
    purchasesCount := purchases.length
    highestExpense := (purchases.map (·.price)).max?.getD 0
    lowestExpense := (purchases.map (·.price)).min?.getD 0
    expenses := expenses
    totalCredits := (transactions.map (·.credits)).sum }

/-- `FinancialReport::from(group).total_profit`. -/
def totalProfit (transactions : List Transaction) : Int := (FinancialReport.ofTransactions transactions).totalProfit

@[simp] theorem totalProfit_nil : totalProfit [] = 0 := rfl

theorem totalProfit_append (transactions later : List Transaction) :
    totalProfit (transactions ++ later) = totalProfit transactions + totalProfit later := by
  simp only [totalProfit, FinancialReport.ofTransactions, List.filter_append, List.map_append, List.sum_append]
  omega

theorem sum_totalProfit (transactions : List Transaction) :
    (transactions.map fun tx => totalProfit [tx]).sum = totalProfit transactions := by
  induction transactions with
  | nil => rfl
  | cons tx rest ih => rw [List.map_cons, List.sum_cons, ih, ← totalProfit_append, List.singleton_append]

/-! ### Graphs -/

structure FinancialGraph where
  labels : List Text
  values : List Int
  deriving DecidableEq, Repr

/-- The entries of a graph, by the order of their keys as texts. -/
def sortedEntries {T : Type} (grouped : Grouped Text T) (extractValue : List T → Int) : List (Text × Int) :=
  (grouped.map fun entry => (entry.1, extractValue entry.2)).mergeSort fun a b => decide (a.1 ≤ b.1)

def FinancialGraph.ofGrouped {T : Type} (grouped : Grouped Text T) (extractValue : List T → Int) : FinancialGraph :=
  { labels := (sortedEntries grouped extractValue).map Prod.fst
    values := (sortedEntries grouped extractValue).map Prod.snd }

section Graph

variable {T : Type} {grouped : Grouped Text T} {extractValue : List T → Int} {buckets : List Text}

theorem sortedEntries_perm (grouped : Grouped Text T) (extractValue : List T → Int) :
    (sortedEntries grouped extractValue).Perm (grouped.map fun entry => (entry.1, extractValue entry.2)) :=
  List.mergeSort_perm _ _

theorem sum_values : (FinancialGraph.ofGrouped grouped extractValue).values.sum = total extractValue grouped := by
  rw [FinancialGraph.ofGrouped, ((sortedEntries_perm grouped extractValue).map Prod.snd).sum_eq, List.map_map]
  rfl

theorem labels_perm (grouped : Grouped Text T) (extractValue : List T → Int) :
    (FinancialGraph.ofGrouped grouped extractValue).labels.Perm (grouped.map Prod.fst) := by
  have hkeys := (sortedEntries_perm grouped extractValue).map Prod.fst
  rw [List.map_map] at hkeys
  exact hkeys

theorem labels_sorted : (FinancialGraph.ofGrouped grouped extractValue).labels.Pairwise (· ≤ ·) := by
  rw [FinancialGraph.ofGrouped, List.pairwise_map]
  have hsorted : (sortedEntries grouped extractValue).Pairwise fun a b => decide (a.1 ≤ b.1) = true := by
    apply List.pairwise_mergeSort
    · intro a b c hab hbc
      exact decide_eq_true (le_trans (of_decide_eq_true hab) (of_decide_eq_true hbc))
    · intro a b
      simpa using le_total a.1 b.1
  exact hsorted.imp fun h => of_decide_eq_true h

/-- The labels are these texts in this order: the keys are, and their order is. -/
theorem labels_eq_iff (hkeys : (grouped.map Prod.fst).Nodup) :
    (FinancialGraph.ofGrouped grouped extractValue).labels = buckets ↔
      buckets.Pairwise (· < ·) ∧ ∀ key, key ∈ grouped.map Prod.fst ↔ key ∈ buckets := by
  have hperm := labels_perm grouped extractValue
  constructor
  · rintro rfl
    constructor
    · have hnodup := hperm.nodup_iff.mpr hkeys
      exact (labels_sorted.and hnodup).imp fun h => lt_of_le_of_ne h.1 h.2
    · exact fun key => hperm.mem_iff.symm
  · rintro ⟨hsorted, hmem⟩
    have hbuckets : (grouped.map Prod.fst).Perm buckets :=
      (List.perm_ext_iff_of_nodup hkeys (hsorted.imp fun h => ne_of_lt h)).mpr hmem
    exact (hperm.trans hbuckets).eq_of_pairwise (fun a b _ _ => le_antisymm) labels_sorted
      (hsorted.imp fun h => le_of_lt h)

end Graph

/-! ### Panels -/

structure Summary where
  summary : FinancialReport
  chart : FinancialGraph
  deriving DecidableEq, Repr

/-- The transactions of a period, its last second included. -/
def createdIn (transactions : List Transaction) (period : DateTime × DateTime) : List Transaction :=
  transactions.filter fun t => period.1 ≤ t.createdAt && t.createdAt ≤ period.2

theorem mem_createdIn {transactions : List Transaction} {period : DateTime × DateTime} {tx : Transaction} :
    tx ∈ createdIn transactions period ↔ tx ∈ transactions ∧ period.1 ≤ tx.createdAt ∧ tx.createdAt ≤ period.2 := by
  rw [createdIn, List.mem_filter, Bool.and_eq_true, decide_eq_true_eq, decide_eq_true_eq]

/-- What is shown of a period in buckets of these levels. -/
def summaryOf (zone : Zone) (transactions : List Transaction) (period : DateTime × DateTime)
    (levels : List GroupByDate) : Summary :=
  let transactions := createdIn transactions period
  let grouped := groupByDate zone transactions (·.createdAt) levels
  let grouped := fillMissingDateKeys grouped period.1 period.2 levels
  { summary := .ofTransactions transactions
    chart := .ofGrouped grouped totalProfit }

def generateTransactionSummary (zone : Zone) (transactions : List Transaction) (date : DateTime)
    (groupBy1 : GroupByDate) (groupBy2 : List GroupByDate) : Summary :=
  summaryOf zone transactions (getStartEndOf date groupBy1) groupBy2

structure TotalSummary where
  total : FinancialReport
  presentYear : Summary
  lastYear : Summary
  deriving DecidableEq, Repr

/-- `now` and `later` are its two readings of the clock. -/
def getTotalSummary (zone : Zone) (now later : DateTime) (transactions : List Transaction) : TotalSummary :=
  { total := .ofTransactions transactions
    presentYear := generateTransactionSummary zone transactions now .year [.year, .month]
    lastYear := generateTransactionSummary zone transactions (later - 365 * nanosPerDay) .year [.year, .month] }

def getTodaySummary (zone : Zone) (now : DateTime) (transactions : List Transaction) : Summary :=
  generateTransactionSummary zone transactions now .day [.hour]

/-- The day that is running and so many before it. -/
def recentPeriod (now : DateTime) (days : Int) : DateTime × DateTime :=
  ((getStartEndOf now .day).1 - days * nanosPerDay, (getStartEndOf now .day).2)

def getRecentDaysSummary (zone : Zone) (now : DateTime) (transactions : List Transaction) (days : Int) : Summary :=
  summaryOf zone transactions (recentPeriod now days) [.year, .month, .day]

/-- Ten platinum for a forma. -/
def soldAt (t : DateTime) : Transaction :=
  ⟨1, "id-forma", "forma", "Forma", .item, "/Forma", none, "", .sale, 1, "", 10, none, 0, t, t, none⟩

end Quantframe.Dashboard
