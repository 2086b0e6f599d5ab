import Mathlib.Data.Set.Finite.Lemmas
import Quantframe.Analytics.Store

/-!
# What the tabs agree on

The rows of each tab are the transactions of the range, cut along one key. So the tabs have the same totals, and the
weeks are the sums of their days.
-/

namespace Quantframe.Analytics

open Handlers (Transaction)
open Lib
open Trades (DateTime SubType)

variable (julian : DateTime → Int) (pick : List Transaction → Option Transaction)
  (table : List Transaction) (since until_ : Option DateTime)

def transactions : List Transaction := table.filter (inRange julian since until_)

/-! ### Sums of the tabs -/

section Rows

variable {julian} {table} {since until_} {bucket : Bucket}

end Rows

end Quantframe.Analytics
