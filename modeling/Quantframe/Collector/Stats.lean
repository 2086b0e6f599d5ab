import Mathlib.Data.List.Dedup
import Mathlib.Data.List.Sort
import Quantframe.Collector.Resolve

/-!
# Probable-trade statistics

Prices are integers, the averages are floats: the float operations are a parameter.
-/

namespace Quantframe.Collector

open Lib

/-- The operations on `f64` that the statistics use. -/
structure Floats (F : Type) where
  ofInt : Int → F
  sum : List F → F
  sub : F → F → F
  div : F → F → F

/-- `side` is that of the vanished order: a vanished `sell` is someone buying. -/
structure Trade where
  side : String
  platinum : Int
  tradedAt : Int
  deriving DecidableEq, Repr

structure LiveSpread where
  minSell : Option Int := none
  maxBuy : Option Int := none
  deriving DecidableEq, Repr

structure ItemStats (F : Type) where
  itemId : String
  subType : String
  volume : F
  avgPrice : Option F
  movingAvg : Option F
  profit : Option F
  minPrice : Option Int
  maxPrice : Option Int
  median : Option F
  historyDays : Int
  warm : Bool
  updatedAt : String
  deriving DecidableEq, Repr

/-- `day` counts the days since 1970-01-01. -/
structure DailyStat (F : Type) where
  day : Int
  volume : Int
  median : Option F
  minPrice : Option Int
  maxPrice : Option Int
  deriving DecidableEq, Repr

/-- `date_naive`. -/
def dateNaive (t : Int) : Int := t / days 1

def numDays (nanos : Int) : Int := nanos.tdiv (days 1)

section Compute

variable {F : Type} (num : Floats F)

def median (values : List Int) : Option F :=
  let sorted := values.mergeSort fun a b => decide (a ≤ b)
  let mid := sorted.length / 2
  if sorted = [] then none
  else if sorted.length % 2 = 0 then
    some (num.div (num.ofInt (sorted.getD (mid - 1) 0 + sorted.getD mid 0)) (num.ofInt 2))
  else some (num.ofInt (sorted.getD mid 0))

def mean (values : List F) : Option F :=
  if values.isEmpty then none else some (num.div (num.sum values) (num.ofInt values.length))

/-- The days on which there are trades, in order. -/
def tradeDays (trades : List Trade) : List Int :=
  (trades.map fun t => dateNaive t.tradedAt).dedup.mergeSort fun a b => decide (a ≤ b)

def pricesOn (day : Int) (trades : List Trade) : List Int :=
  (trades.filter fun t => dateNaive t.tradedAt = day).map Trade.platinum

/-- The trades of the last `window` before `now`. -/
def within (window now : Int) (trades : List Trade) : List Trade :=
  trades.filter fun t => decide (now - window < t.tradedAt ∧ t.tradedAt ≤ now)

def pricesOf (side : String) (trades : List Trade) : List Int :=
  (trades.filter fun t => t.side == side).map Trade.platinum

def profitOf (week : List Trade) (spread : LiveSpread) (cfg : StatsConfig) : Option F :=
  let sells := pricesOf "sell" week
  let buys := pricesOf "buy" week
  let live := match spread.minSell, spread.maxBuy with
    | some sell, some buy => some (num.ofInt (sell - buy))
    | _, _ => none
  match median num sells, median num buys with
  | some sell, some buy =>
      if cfg.sideMinTrades ≤ sells.length ∧ cfg.sideMinTrades ≤ buys.length then some (num.sub sell buy)
      else live
  | _, _ => live

/-- The statistics of one sub-type from its trades and its live spread. -/
def computeItemStats (clock : Clock) (itemId subType : String) (trades : List Trade) (spread : LiveSpread)
    (firstSweptAt : Option Int) (now : Int) (cfg : StatsConfig) : ItemStats F :=
  let week := within cfg.window now trades
  let prices := week.map Trade.platinum
  let recent := (week.filter fun t => decide (now - cfg.avgWindow < t.tradedAt)).map fun t =>
    num.ofInt t.platinum
  let dailyMedians := (tradeDays week).filterMap fun day => median num (pricesOn day week)
  let historyDays := (firstSweptAt.map fun f => max (numDays (now - f)) 0).getD 0
  { itemId := itemId
    subType := subType
    volume := num.div (num.ofInt week.length) (num.ofInt (numDays cfg.window))
    avgPrice := mean num recent
    movingAvg := mean num dailyMedians
    profit := profitOf num week spread cfg
    minPrice := prices.min?
    maxPrice := prices.max?
    median := median num prices
    historyDays := historyDays
    warm := decide (cfg.warmDays ≤ historyDays) && decide (cfg.warmMinTrades ≤ week.length)
    updatedAt := clock.ts now }

def dayStat (day : Int) (prices : List Int) : DailyStat F where
  day := day
  volume := prices.length
  median := median num prices
  minPrice := prices.min?
  maxPrice := prices.max?

def dailyRollup (trades : List Trade) : List (DailyStat F) :=
  (tradeDays trades).map fun day => dayStat num day (pricesOn day trades)

variable {num}

/-- Only the trades of the window count. -/
theorem computeItemStats_congr {clock : Clock} {itemId subType : String} {trades trades' : List Trade}
    {spread : LiveSpread} {firstSweptAt : Option Int} {now : Int} {cfg : StatsConfig}
    (h : within cfg.window now trades = within cfg.window now trades') :
    computeItemStats num clock itemId subType trades spread firstSweptAt now cfg =
      computeItemStats num clock itemId subType trades' spread firstSweptAt now cfg := by
  simp only [computeItemStats, h]

/-- A warm row has its trades. -/
theorem computeItemStats_warm {clock : Clock} {itemId subType : String} {trades : List Trade}
    {spread : LiveSpread} {firstSweptAt : Option Int} {now : Int} {cfg : StatsConfig}
    (h : (computeItemStats num clock itemId subType trades spread firstSweptAt now cfg).warm = true) :
    cfg.warmMinTrades ≤ (within cfg.window now trades).length := by
  simp only [computeItemStats, Bool.and_eq_true, decide_eq_true_eq] at h
  exact h.2

theorem mem_tradeDays {trades : List Trade} {day : Int} :
    day ∈ tradeDays trades ↔ ∃ t ∈ trades, dateNaive t.tradedAt = day := by
  rw [tradeDays, List.mem_mergeSort, List.mem_dedup, List.mem_map]

end Compute

end Quantframe.Collector
