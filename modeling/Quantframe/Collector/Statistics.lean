import Quantframe.Collector.Closed
import Quantframe.Collector.Runner
import Quantframe.Collector.Trends

/-!
# The statistics of one item from the market

The fetch that the backfill and the daily loops share, and the series of closed trades in its answer. How a
body decodes, how a price is rounded and which day a date text names are parameters.
-/

namespace Quantframe.Collector.Statistics

open Trades (Error)
open Trends (ClosedDay Day)

variable {Body F : Type}

/-- A 404, a block or a 429 is final; `left` says how often any other failure is still retried. -/
def retrying (fetch : Nat → Except FetchError Body) (retries : Nat) : Nat → Except FetchError Body
  | 0 => fetch retries
  | left + 1 =>
      match fetch retries with
      | .ok body => .ok body
      | .error .notFound => .error .notFound
      | .error .blocked => .error .blocked
      | .error .rateLimited => .error .rateLimited
      | .error _ => retrying fetch (retries + 1) left

/-- What the caller gets; `fetch` says how each attempt is answered. -/
def fetchWithRetries (fetch : Nat → Except FetchError Body) : Except FetchError Body := retrying fetch 0 maxRetries

structure Row (F : Type) where
  datetime : String
  volume : Int
  minPrice : Option F
  maxPrice : Option F
  median : Option F
  avgPrice : Option F
  waPrice : Option F
  modRank : Option Int
  subtype : Option String

/-- `serde_json` on a body, `round() as i64`, and the day a text of ten characters names where days are counted. -/
structure Reader (Body F : Type) where
  days90 : Body → Except Error (List (Row F))
  round : F → Int
  date : String → Day

def Row.closedDay (reader : Reader Body F) (r : Row F) : ClosedDay F where
  subType := subTypeKey r.modRank none r.subtype none none
  day := String.ofList (r.datetime.toList.take 10)
  volume := r.volume
  median := r.median
  minPrice := r.minPrice.map reader.round
  maxPrice := r.maxPrice.map reader.round
  avgPrice := r.avgPrice
  waPrice := r.waPrice

/-- The `90days` series. -/
def parseStatistics (reader : Reader Body F) (body : Body) : Except Error (List (ClosedDay F)) :=
  (reader.days90 body).map fun rows => rows.map (Row.closedDay reader)

end Quantframe.Collector.Statistics
