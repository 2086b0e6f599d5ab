import Mathlib.Algebra.Order.Field.Rat
import Mathlib.Tactic.Linarith
import Mathlib.Tactic.NormNum
import Quantframe.Collector.Closed
import Quantframe.Trader.Entries

/-!
# The two price sources merged

Inferred and closed statistics are keyed by item and sub-type. In closed mode the closed prices win where a key has
both, and the collector's recent average where it has fallen far below.
-/

namespace Quantframe.Collector

variable {F : Type}

def ItemStats.key (s : ItemStats F) : String × String := (s.itemId, s.subType)
def ClosedStats.key (c : ClosedStats F) : String × String := (c.itemId, c.subType)

end Quantframe.Collector

namespace Quantframe.Trader

open Lib
open Collector (ClosedFloats ClosedStats ItemStats keyLe)

/-- The comparisons on `f64` that blending makes besides. -/
structure BlendFloats (F : Type) extends ClosedFloats F where
  lt : F → F → Bool
  le : F → F → Bool

inductive PriceSourceMode where
  | inferred
  | closed
  deriving DecidableEq, Repr

inductive ProfitBasis where
  | spread
  | range
  deriving DecidableEq, Repr

def guardMinWeekTrades : Int := 20

structure Effective (F : Type) where
  stats : ItemStats F
  weekPriceShift : Option F
  guarded : Bool
  /-- The price fields come from closed statistics. -/
  closed : Bool
  /-- The collector knows the key. -/
  inferred : Bool

def Effective.key {F : Type} (e : Effective F) : String × String := e.stats.key

def plain {F : Type} (stats : ItemStats F) : Effective F where
  stats := stats
  weekPriceShift := none
  guarded := false
  closed := false
  inferred := true

/-- A `BTreeMap` collected from the rows: in the order of the keys, the last row of each. -/
def closedByKey {F : Type} (closed : List (ClosedStats F)) : List (ClosedStats F) :=
  (distinct keyLe (closed.map ClosedStats.key)).filterMap fun key =>
    closed.reverse.find? fun c => decide (c.key = key)

section Merge

variable {F : Type} (num : BlendFloats F) (clock : Collector.Clock) (guardPct : Int) (profitBasis : ProfitBasis)
  (now : Int)

/-- The recent average, where the market has fallen below the closed one by more than the guard's percentage. -/
def fastDrop (inferred : Option (ItemStats F)) (c : ClosedStats F) : Option F := do
  let i ← inferred
  let recent ← i.avgPrice
  let closedAvg ← c.movingAvg
  if !isDisabled guardPct && num.le (num.ofInt guardMinWeekTrades) (num.mul i.volume (num.ofInt 7)) &&
      num.lt recent (num.mul closedAvg (num.sub (num.ofInt 1) (num.div (num.ofInt guardPct) (num.ofInt 100)))) then
    some recent
  else none

/-- The range is no profit of a key that the collector does not know. -/
def mergedProfit (inferred : Option (ItemStats F)) (c : ClosedStats F) : Option F :=
  match profitBasis, c.rangeProfit, inferred with
  | .range, some range, some _ => some range
  | _, _, _ => inferred.bind ItemStats.profit

def merge (inferred : Option (ItemStats F)) (c : ClosedStats F) : Effective F :=
  let known := inferred.isSome
  let drop := fastDrop num guardPct inferred c
  { stats :=
      { itemId := c.itemId
        subType := c.subType
        volume := c.volume
        avgPrice := c.avgPrice
        movingAvg := drop.or c.movingAvg
        profit := mergedProfit profitBasis inferred c
        minPrice := c.minPrice
        maxPrice := c.maxPrice
        median := c.median
        historyDays := (inferred.map ItemStats.historyDays).getD 0
        warm := c.warm && known
        updatedAt := (inferred.map ItemStats.updatedAt).getD (clock.ts now) }
    weekPriceShift := c.weekPriceShift
    guarded := drop.isSome
    closed := true
    inferred := known }

/-- The row of an inferred key. -/
def effective (i : ItemStats F) : Option (ClosedStats F) → Effective F
  | some c => merge num clock guardPct profitBasis now (some i) c
  | none => plain i

/-- The rows of the inferred keys, each of which takes its closed row out of the map, and what is left in it. -/
def takeClosed : List (ItemStats F) → List (ClosedStats F) → List (Effective F) × List (ClosedStats F)
  | [], left => ([], left)
  | i :: rest, left =>
    let row := effective num clock guardPct profitBasis now i (left.find? fun c => decide (c.key = i.key))
    let (rows, left) := takeClosed rest (left.filter fun c => decide (c.key ≠ i.key))
    (row :: rows, left)

def blend (inferred : List (ItemStats F)) (closed : List (ClosedStats F)) (mode : PriceSourceMode) :
    List (Effective F) :=
  match mode with
  | .inferred => inferred.map plain
  | .closed =>
    let (out, left) := takeClosed num clock guardPct profitBasis now inferred (closedByKey closed)
    out ++ left.map (merge num clock guardPct profitBasis now none)

end Merge

/-! ### Where a row comes from -/

section Rows

variable {F : Type} {num : BlendFloats F} {clock : Collector.Clock} {guardPct : Int} {profitBasis : ProfitBasis}
  {now : Int} {inferred : List (ItemStats F)} {closed : List (ClosedStats F)} {c : ClosedStats F} {i : ItemStats F}
  {e : Effective F}

theorem key_of_find? {rows : List (ClosedStats F)} {key : String × String}
    (h : (rows.find? fun c => decide (c.key = key)) = some c) : c.key = key := by
  have hdecide := List.find?_some h
  exact of_decide_eq_true hdecide

theorem closedByKey_keys (closed : List (ClosedStats F)) :
    (closedByKey closed).map ClosedStats.key = distinct keyLe (closed.map ClosedStats.key) := by
  have hfind (keys : List (String × String)) (hkeys : ∀ key ∈ keys, key ∈ closed.map ClosedStats.key) :
      (keys.filterMap fun key => closed.reverse.find? fun c => decide (c.key = key)).map ClosedStats.key = keys := by
    induction keys with
    | nil => rfl
    | cons key keys ih =>
        obtain ⟨c, hc, hkey⟩ := List.mem_map.mp (hkeys key List.mem_cons_self)
        cases hfound : closed.reverse.find? fun c => decide (c.key = key) with
        | none => exact absurd (decide_eq_true hkey) (List.find?_eq_none.mp hfound c (List.mem_reverse.mpr hc))
        | some found =>
            rw [List.filterMap_cons_some (f := fun key => closed.reverse.find? fun c => decide (c.key = key)) hfound,
              List.map_cons, key_of_find? hfound, ih fun key hmem => hkeys key (List.mem_cons_of_mem _ hmem)]
  exact hfind _ fun key hkey => mem_distinct.mp hkey

theorem mem_of_mem_closedByKey (h : c ∈ closedByKey closed) : c ∈ closed := by
  obtain ⟨key, -, hfound⟩ := List.mem_filterMap.mp h
  exact List.mem_reverse.mp (List.mem_of_find?_eq_some hfound)

/-- Rows with distinct keys all stay in the map. -/
theorem mem_closedByKey (h : (closed.map ClosedStats.key).Nodup) (hc : c ∈ closed) : c ∈ closedByKey closed := by
  have hkey : c.key ∈ (closedByKey closed).map ClosedStats.key := by
    rw [closedByKey_keys, mem_distinct]
    exact List.mem_map_of_mem hc
  obtain ⟨found, hfound, heq⟩ := List.mem_map.mp hkey
  rwa [List.inj_on_of_nodup_map h (mem_of_mem_closedByKey hfound) hc heq] at hfound

theorem takeClosed_eq (h : (inferred.map ItemStats.key).Nodup) (rows : List (ClosedStats F)) :
    takeClosed num clock guardPct profitBasis now inferred rows =
      (inferred.map fun i =>
          effective num clock guardPct profitBasis now i (rows.find? fun c => decide (c.key = i.key)),
        rows.filter fun c => decide (c.key ∉ inferred.map ItemStats.key)) := by
  induction inferred generalizing rows with
  | nil => simp [takeClosed]
  | cons i rest ih =>
      obtain ⟨hi, hrest⟩ := List.nodup_cons.mp h
      have hother : ∀ j ∈ rest, ((rows.filter fun c => decide (c.key ≠ i.key)).find? fun c => decide (c.key = j.key)) =
          rows.find? fun c => decide (c.key = j.key) := by
        intro j hj
        have hne : j.key ≠ i.key := fun heq => hi (heq ▸ List.mem_map_of_mem hj)
        rw [List.find?_filter]
        congr 1
        funext c
        by_cases hc : c.key = j.key
        · simp [hc, hne]
        · simp [hc]
      rw [takeClosed, ih hrest, List.map_cons, List.map_congr_left fun j hj => congrArg _ (hother j hj),
        List.filter_filter]
      simp only [List.map_cons, List.mem_cons, not_or, Bool.decide_and, ne_eq, Bool.and_comm]

/-- What a row of closed mode is made of. -/
inductive Origin (num : BlendFloats F) (clock : Collector.Clock) (guardPct : Int) (profitBasis : ProfitBasis)
    (now : Int) (inferred : List (ItemStats F)) (closed : List (ClosedStats F)) : Effective F → Prop where
  | plain {i : ItemStats F} : i ∈ inferred → i.key ∉ closed.map ClosedStats.key →
      Origin num clock guardPct profitBasis now inferred closed (plain i)
  | merged {i : ItemStats F} {c : ClosedStats F} : i ∈ inferred → c ∈ closed → c.key = i.key →
      Origin num clock guardPct profitBasis now inferred closed (merge num clock guardPct profitBasis now (some i) c)
  | unknown {c : ClosedStats F} : c ∈ closed → c.key ∉ inferred.map ItemStats.key →
      Origin num clock guardPct profitBasis now inferred closed (merge num clock guardPct profitBasis now none c)

theorem origin_effective (hclosed : (closed.map ClosedStats.key).Nodup) (hi : i ∈ inferred) :
    Origin num clock guardPct profitBasis now inferred closed
      (effective num clock guardPct profitBasis now i
        ((closedByKey closed).find? fun c => decide (c.key = i.key))) := by
  cases hfound : (closedByKey closed).find? fun c => decide (c.key = i.key) with
  | none =>
      refine .plain hi fun hkey => ?_
      obtain ⟨c, hc, hkey⟩ := List.mem_map.mp hkey
      exact List.find?_eq_none.mp hfound c (mem_closedByKey hclosed hc) (decide_eq_true hkey)
  | some c =>
      exact .merged hi (mem_of_mem_closedByKey (List.mem_of_find?_eq_some hfound)) (key_of_find? hfound)

theorem origin_of_mem (hinferred : (inferred.map ItemStats.key).Nodup) (hclosed : (closed.map ClosedStats.key).Nodup)
    (he : e ∈ blend num clock guardPct profitBasis now inferred closed .closed) :
    Origin num clock guardPct profitBasis now inferred closed e := by
  rw [blend, takeClosed_eq hinferred] at he
  rcases List.mem_append.mp he with he | he
  · obtain ⟨i, hi, rfl⟩ := List.mem_map.mp he
    exact origin_effective hclosed hi
  · obtain ⟨c, hc, rfl⟩ := List.mem_map.mp he
    obtain ⟨hc, hkey⟩ := List.mem_filter.mp hc
    exact .unknown (mem_of_mem_closedByKey hc) (of_decide_eq_true hkey)

@[simp] theorem merge_key (known : Option (ItemStats F)) (c : ClosedStats F) :
    (merge num clock guardPct profitBasis now known c).key = c.key := rfl

theorem effective_key {found : Option (ClosedStats F)} (h : ∀ c, found = some c → c.key = i.key) :
    (effective num clock guardPct profitBasis now i found).key = i.key := by
  cases found with
  | none => rfl
  | some c => exact h c rfl

/-- The inferred keys in their order, then the others of the closed rows in that of the map. -/
theorem blend_keys (hinferred : (inferred.map ItemStats.key).Nodup) :
    (blend num clock guardPct profitBasis now inferred closed .closed).map Effective.key =
      inferred.map ItemStats.key ++ (distinct keyLe (closed.map ClosedStats.key)).filter fun key =>
        decide (key ∉ inferred.map ItemStats.key) := by
  rw [blend, takeClosed_eq hinferred, List.map_append, List.map_map, List.map_map, ← closedByKey_keys, List.filter_map]
  refine congrArg₂ _ (List.map_congr_left fun i _ => ?_) rfl
  exact effective_key fun c hc => key_of_find? hc

end Rows

/-! ### What the trader reads -/

/-- A warm row has a warm closed row where it has one. -/
def WarmWithClosed {F : Type} (closed : List (ClosedStats F)) (out : List (Effective F)) : Prop :=
  ∀ e ∈ out, e.stats.warm = true → ∀ c ∈ closed, c.key = e.key → c.warm = true

/-- No row is priced above its closed average, and the guarded ones below it. -/
def GuardedBelow (closed : List (ClosedStats ℚ)) (out : List (Effective ℚ)) : Prop :=
  ∀ e ∈ out, ∀ c ∈ closed, c.key = e.key → ∀ avg, c.movingAvg = some avg →
    ∃ price, e.stats.movingAvg = some price ∧ price ≤ avg ∧ (price < avg ↔ e.guarded = true)

/-- The rows of a blend. -/
structure Blended (inferred : List (ItemStats ℚ)) (closed : List (ClosedStats ℚ)) (mode : PriceSourceMode)
    (out : List (Effective ℚ)) : Prop where
  identity : mode = .inferred → out = inferred.map plain
  onePerKey : (out.map Effective.key).Nodup
  keys : ∀ key, key ∈ out.map Effective.key ↔
    key ∈ inferred.map ItemStats.key ∨ mode = .closed ∧ key ∈ closed.map ClosedStats.key
  known : ∀ e ∈ out, e.stats.warm = true → e.key ∈ inferred.map ItemStats.key
  warm : mode = .closed → WarmWithClosed closed out
  movingAvg : mode = .closed → GuardedBelow closed out
  profit : ∀ e ∈ out, e.key ∉ inferred.map ItemStats.key → e.stats.profit = none

def BlendFloats.rat : BlendFloats ℚ where
  toClosedFloats := Collector.ratClosed
  lt a b := decide (a < b)
  le a b := decide (a ≤ b)

section Exact

variable {clock : Collector.Clock} {guardPct : Int} {profitBasis : ProfitBasis} {now : Int}
  {inferred : List (ItemStats ℚ)} {closed : List (ClosedStats ℚ)} {c : ClosedStats ℚ} {e : Effective ℚ}
  {avg recent : ℚ}

/-- A percentage that does not disable the guard is not negative, so the guard only lowers. -/
theorem fastDrop_lt {known : Option (ItemStats ℚ)} (h : fastDrop .rat guardPct known c = some recent)
    (havg : c.movingAvg = some avg) (hnonneg : 0 ≤ avg) : recent < avg := by
  simp only [fastDrop, Option.bind_eq_bind, Option.bind_eq_some_iff] at h
  obtain ⟨i, -, found, -, closedAvg, hclosed, h⟩ := h
  cases havg.symm.trans hclosed
  split at h
  · next hguard =>
      cases h
      rw [Bool.and_eq_true, Bool.and_eq_true, isDisabled, Bool.not_eq_true', decide_eq_false_iff_not] at hguard
      obtain ⟨⟨hon, -⟩, hlt⟩ := hguard
      have hpct : (0 : ℚ) ≤ guardPct / 100 := by
        have hzero : 0 ≤ guardPct := by omega
        have hcast : (0 : ℚ) ≤ guardPct := by exact_mod_cast hzero
        exact div_nonneg hcast (by norm_num)
      calc recent < avg * (1 - guardPct / 100) := of_decide_eq_true hlt
        _ ≤ avg * 1 := mul_le_mul_of_nonneg_left (by linarith) hnonneg
        _ = avg := mul_one avg
  · cases h

/-- The price of a merged row. -/
theorem merge_movingAvg (known : Option (ItemStats ℚ)) (havg : c.movingAvg = some avg) (hnonneg : 0 ≤ avg) :
    ∃ price, (merge .rat clock guardPct profitBasis now known c).stats.movingAvg = some price ∧ price ≤ avg ∧
      (price < avg ↔ (merge .rat clock guardPct profitBasis now known c).guarded = true) := by
  rw [merge]
  cases hdrop : fastDrop .rat guardPct known c with
  | none => exact ⟨avg, havg, le_refl avg, iff_of_false (lt_irrefl avg) Bool.false_ne_true⟩
  | some recent =>
      have hlt := fastDrop_lt hdrop havg hnonneg
      exact ⟨recent, rfl, hlt.le, iff_of_true hlt rfl⟩

theorem mergedProfit_none {F : Type} (profitBasis : ProfitBasis) (c : ClosedStats F) :
    mergedProfit profitBasis none c = none := by
  cases profitBasis <;> cases h : c.rangeProfit <;> simp [mergedProfit, h]

theorem Origin.known (h : Origin .rat clock guardPct profitBasis now inferred closed e)
    (hwarm : e.stats.warm = true) : e.key ∈ inferred.map ItemStats.key := by
  cases h with
  | plain hi _ => exact List.mem_map_of_mem hi
  | merged hi _ hkey =>
      rw [merge_key, hkey]
      exact List.mem_map_of_mem hi
  | unknown _ _ => simp [merge] at hwarm

theorem Origin.warm (h : Origin .rat clock guardPct profitBasis now inferred closed e)
    (hclosed : (closed.map ClosedStats.key).Nodup) (hwarm : e.stats.warm = true) (hc : c ∈ closed)
    (hkey : c.key = e.key) : c.warm = true := by
  cases h with
  | plain _ hnone => exact absurd (List.mem_map.mpr ⟨c, hc, hkey⟩) hnone
  | merged _ hc' _ =>
      rw [List.inj_on_of_nodup_map hclosed hc hc' hkey]
      exact (Bool.and_eq_true_iff.mp hwarm).1
  | unknown _ _ => simp [merge] at hwarm

theorem Origin.movingAvg (h : Origin .rat clock guardPct profitBasis now inferred closed e)
    (hclosed : (closed.map ClosedStats.key).Nodup) (hc : c ∈ closed) (hkey : c.key = e.key)
    (havg : c.movingAvg = some avg) (hnonneg : 0 ≤ avg) :
    ∃ price, e.stats.movingAvg = some price ∧ price ≤ avg ∧ (price < avg ↔ e.guarded = true) := by
  cases h with
  | plain _ hnone => exact absurd (List.mem_map.mpr ⟨c, hc, hkey⟩) hnone
  | merged _ hc' _ =>
      cases List.inj_on_of_nodup_map hclosed hc hc' hkey
      exact merge_movingAvg _ havg hnonneg
  | unknown hc' _ =>
      cases List.inj_on_of_nodup_map hclosed hc hc' hkey
      exact merge_movingAvg _ havg hnonneg

theorem Origin.profit (h : Origin .rat clock guardPct profitBasis now inferred closed e)
    (hkey : e.key ∉ inferred.map ItemStats.key) : e.stats.profit = none := by
  cases h with
  | plain hi _ => exact absurd (List.mem_map_of_mem hi) hkey
  | merged hi _ hsame =>
      refine absurd ?_ hkey
      rw [merge_key, hsame]
      exact List.mem_map_of_mem hi
  | unknown _ _ => exact mergedProfit_none profitBasis _

theorem blended_inferred (hinferred : (inferred.map ItemStats.key).Nodup) :
    Blended inferred closed .inferred (blend .rat clock guardPct profitBasis now inferred closed .inferred) := by
  have hkeys : (inferred.map plain).map Effective.key = inferred.map ItemStats.key := List.map_map
  have hmem (e : Effective ℚ) (he : e ∈ inferred.map plain) : e.key ∈ inferred.map ItemStats.key := by
    rw [← hkeys]
    exact List.mem_map_of_mem he
  constructor
  · exact fun _ => rfl
  · rw [blend, hkeys]
    exact hinferred
  · intro key
    rw [blend, hkeys]
    exact ⟨Or.inl, fun h => h.resolve_right fun hmode => absurd hmode.1 (by decide)⟩
  · exact fun e he _ => hmem e he
  · intro h
    cases h
  · intro h
    cases h
  · exact fun e he hkey => absurd (hmem e he) hkey

theorem blended_closed (hinferred : (inferred.map ItemStats.key).Nodup) (hclosed : (closed.map ClosedStats.key).Nodup)
    (hprices : ∀ c ∈ closed, ∀ avg, c.movingAvg = some avg → 0 ≤ avg) :
    Blended inferred closed .closed (blend .rat clock guardPct profitBasis now inferred closed .closed) := by
  constructor
  · intro h
    cases h
  · rw [blend_keys hinferred]
    apply hinferred.append ((nodup_distinct _ _).filter _)
    intro key hkey hother
    exact of_decide_eq_true (List.mem_filter.mp hother).2 hkey
  · intro key
    rw [blend_keys hinferred, List.mem_append, List.mem_filter, mem_distinct, decide_eq_true_eq]
    by_cases hkey : key ∈ inferred.map ItemStats.key
    · exact iff_of_true (.inl hkey) (.inl hkey)
    · simp only [hkey, not_false_eq_true, and_true, true_and, false_or]
  · exact fun e he => (origin_of_mem hinferred hclosed he).known
  · exact fun _ e he hwarm c hc hkey => (origin_of_mem hinferred hclosed he).warm hclosed hwarm hc hkey
  · intro _ e he c hc hkey avg havg
    exact (origin_of_mem hinferred hclosed he).movingAvg hclosed hc hkey havg (hprices c hc avg havg)
  · exact fun e he => (origin_of_mem hinferred hclosed he).profit

/-- In either mode the rows are one for each key that the mode knows; the closed prices bound those of closed mode. -/
theorem blend_blended (inferred : List (ItemStats ℚ)) (closed : List (ClosedStats ℚ)) (mode : PriceSourceMode)
    (guardPct : Int) (profitBasis : ProfitBasis) (clock : Collector.Clock) (now : Int)
    (hinferred : (inferred.map ItemStats.key).Nodup) (hclosed : (closed.map ClosedStats.key).Nodup)
    (hprices : ∀ c ∈ closed, ∀ avg, c.movingAvg = some avg → 0 ≤ avg) :
    Blended inferred closed mode (blend .rat clock guardPct profitBasis now inferred closed mode) := by
  cases mode with
  | inferred => exact blended_inferred hinferred
  | closed => exact blended_closed hinferred hclosed hprices

end Exact

/-- A lens at 70 in the collector's own statistics. -/
def inferredLens : ItemStats ℚ where
  itemId := "lens"
  subType := ""
  volume := 9
  avgPrice := some 50
  movingAvg := some 70
  profit := some 12
  minPrice := some 1
  maxPrice := some 2
  median := some 70
  historyDays := 5
  warm := true
  updatedAt := "2026-09-20T07:55:00Z"

/-- At 66 over too few closed days. -/
def closedLens : ClosedStats ℚ where
  itemId := "lens"
  subType := ""
  volume := 30
  movingAvg := some 66
  median := some 67
  avgPrice := some 68
  minPrice := some 40
  maxPrice := some 90
  weekPriceShift := some (-3)
  rangeProfit := some 30
  days := 2
  trades := 210
  warm := false

def stoppedClock : Collector.Clock := ⟨fun _ => "2026-09-20T08:00:00Z", fun _ => none⟩

theorem blend_blended_lens : Blended [inferredLens] [closedLens] .closed
    (blend .rat stoppedClock 10 .spread 0 [inferredLens] [closedLens] .closed) :=
  blend_blended [inferredLens] [closedLens] .closed 10 .spread stoppedClock 0 (List.nodup_singleton _)
    (List.nodup_singleton _) (by
      intro c hc avg havg
      cases List.mem_singleton.mp hc
      cases havg
      decide +kernel)

/-- In inferred mode a closed row that is not warm and is cheaper changes nothing. -/
theorem inferred_mode_ignores_closed :
    ([inferredLens].map ItemStats.key).Nodup ∧ ([closedLens].map ClosedStats.key).Nodup ∧
      ¬ WarmWithClosed [closedLens] (blend .rat stoppedClock 10 .spread 0 [inferredLens] [closedLens] .inferred) ∧
      ¬ GuardedBelow [closedLens] (blend .rat stoppedClock 10 .spread 0 [inferredLens] [closedLens] .inferred) := by
  refine ⟨List.nodup_singleton _, List.nodup_singleton _, ?_, ?_⟩
  · intro h
    have hwarm := h (plain inferredLens) List.mem_cons_self rfl closedLens List.mem_cons_self rfl
    cases hwarm
  · intro h
    obtain ⟨price, hprice, hle, -⟩ :=
      h (plain inferredLens) List.mem_cons_self closedLens List.mem_cons_self rfl 66 rfl
    cases hprice
    exact absurd hle (by decide +kernel)

end Quantframe.Trader
