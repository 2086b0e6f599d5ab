import Mathlib.Algebra.Ring.Rat
import Quantframe.Collector.Relists
import Quantframe.Collector.Stats

/-!
# Recomputing `item_stats`

A recompute writes the sub-types that have trades in the window or stand in the summaries with the
latest time, and leaves every other row of the item as it was.
-/

namespace Quantframe.Collector

open Lib

structure DailyRow (F : Type) where
  itemId : String
  subType : String
  stat : DailyStat F
  deriving DecidableEq, Repr

abbrev ItemStatsTable (F : Type) := Table fun r : ItemStats F => (r.itemId, r.subType)

abbrev DailyTable (F : Type) := Table fun r : DailyRow F => (r.itemId, r.subType, r.stat.day)

/-- The collector's tables and the two that are computed from them. -/
structure Database (F : Type) where
  tables : Tables
  itemStats : ItemStatsTable F
  itemStatsDaily : DailyTable F

/-- The latest of some times, `MAX(swept_at)`. -/
def maxTime (times : List String) : Option String :=
  times.find? fun t => times.all fun t' => decide (t' ≤ t)

def tradeOf (clock : Clock) (row : VanishedRow) : Option Trade :=
  (clock.parseTs row.vanishedAt).map fun at_ => ⟨row.order.side, row.order.platinum, at_⟩

def spreadFor (summaries : List SweepSummary) (subType : String) : LiveSpread :=
  match summaries.reverse.find? fun s => s.subType = subType with
  | some s => ⟨s.minSell, s.maxBuy⟩
  | none => {}

section Source

variable {F : Type} (num : Floats F) (clock : Clock) (cfg : StatsConfig)

/-- The trade vanishes of an item after the start of the window, with their sub-types. -/
def recentTrades (db : Tables) (itemId : String) (now : Int) : List (String × Trade) :=
  (db.vanishedOrders.filter fun r => r.itemId = itemId ∧ r.status = "trade" ∧
    clock.ts (now - cfg.window) < r.vanishedAt).filterMap fun r =>
      (tradeOf clock r).map fun t => (r.order.subType, t)

def latestSummaries (db : Tables) (itemId : String) : List SweepSummary :=
  let rows := db.sweepSummary.filter fun r => r.itemId = itemId
  match maxTime (rows.map SummaryRow.sweptAt) with
  | none => []
  | some latest => (rows.filter fun r => r.sweptAt = latest).map SummaryRow.summary

def firstSweptAt (db : Tables) (itemId : String) : Option Int :=
  ((db.sweepState.lookup itemId).bind SweepState.firstSweptAt).bind clock.parseTs

/-- The sub-types of a recompute, in order. -/
def statGroups (trades : List (String × Trade)) (summaries : List SweepSummary) : List String :=
  (trades.map Prod.fst ++ summaries.map SweepSummary.subType).dedup.mergeSort fun a b => decide (a ≤ b)

def statRows (db : Tables) (itemId : String) (now : Int) : List (ItemStats F) :=
  let trades := recentTrades clock cfg db itemId now
  let summaries := latestSummaries db itemId
  (statGroups trades summaries).map fun subType =>
    computeItemStats num clock itemId subType
      ((trades.filter fun t => t.1 = subType).map Prod.snd) (spreadFor summaries subType)
      (firstSweptAt clock db itemId) now cfg

/-- Rewrites `item_stats` for every sub-type of the item that has recent trades or appears in its latest
sweep. -/
def recomputeItemStats (db : Database F) (itemId : String) (now : Int) : Database F :=
  { db with
    itemStats := (statRows num clock cfg db.tables itemId now).foldl Table.insertOrReplace db.itemStats }

/-- A sweep, a resolution, or a recompute of one item. -/
inductive Job where
  | event (e : Event)
  | recompute (itemId : String) (now : Int)

def Job.apply (db : Database F) : Job → Database F
  | .event e => { db with tables := e.apply clock cfg db.tables }
  | .recompute itemId now => recomputeItemStats num clock cfg db itemId now

def afterJobs (db : Database F) (jobs : List Job) : Database F := jobs.foldl (Job.apply num clock cfg) db

end Source

def Job.event? : Job → Option Event
  | .event e => some e
  | .recompute .. => none

def eventsOf (jobs : List Job) : List Event := jobs.filterMap Job.event?

/-! ### What a current row is -/

section Statements

variable {F : Type} (num : Floats F) (clock : Clock) (cfg : StatsConfig)

def tradesOf (db : Tables) (itemId subType : String) : List Trade :=
  (db.vanishedOrders.filter fun r => r.itemId = itemId ∧ r.order.subType = subType ∧
    r.status = "trade").filterMap (tradeOf clock)

/-- The trades of a sub-type in the window before `now`. -/
def tradesInWindow (db : Tables) (itemId subType : String) (now : Int) : List Trade :=
  within cfg.window now (tradesOf clock db itemId subType)

def latestSweep (sweeps : List SweepInput) (itemId : String) : Option SweepInput :=
  (sweeps.filter fun s => s.itemId = itemId).getLast?

/-- The spread of a sub-type in the item's latest sweep, none when it shows no order of it. -/
def latestSpread (sweeps : List SweepInput) (itemId subType : String) : LiveSpread :=
  match latestSweep sweeps itemId with
  | none => {}
  | some s => spreadFor (summarize s.orders) subType

/-- Every row of the item is what its trades and its spread make of it. -/
def Current (db : Database F) (sweeps : List SweepInput) (itemId : String) (now : Int) : Prop :=
  ∀ row ∈ db.itemStats.rows, row.itemId = itemId →
    row = computeItemStats num clock itemId row.subType
        (tradesInWindow clock cfg db.tables itemId row.subType now)
        (latestSpread sweeps itemId row.subType) (firstSweptAt clock db.tables itemId) now cfg ∧
      (row.warm = true →
        cfg.warmMinTrades ≤ (tradesInWindow clock cfg db.tables itemId row.subType now).length)

/-- The sub-type of every row of the item is met again: it has a trade in the window or a visible order
in the latest sweep. -/
def MetAgain (db : Database F) (sweeps : List SweepInput) (itemId : String) (now : Int) : Prop :=
  ∀ row ∈ db.itemStats.rows, row.itemId = itemId →
    tradesInWindow clock cfg db.tables itemId row.subType now ≠ [] ∨
      ∃ s, latestSweep sweeps itemId = some s ∧
        ∃ o ∈ s.orders, o.visible = true ∧ o.subTypeKey = row.subType

/-- The latest sweep of the item wrote the summaries with the latest time. -/
def LatestCounts (sweeps : List SweepInput) (itemId : String) : Prop :=
  ∀ pre last, (sweeps.filter fun s => s.itemId = itemId) = pre ++ [last] →
    ∀ s ∈ pre, (∃ o ∈ s.orders, o.visible = true) →
      (∃ o ∈ last.orders, o.visible = true) ∧ wholeSeconds s.sweptAt < wholeSeconds last.sweptAt

end Statements

/-! ### What a recompute reads -/

section Reads

variable {clock : Clock} {cfg : StatsConfig} {valid : Int → Prop}

/-- The text comparison of the query takes the trades of the window, whose other end the computation
checks. -/
theorem within_recent {rows : List VanishedRow} {itemId subType : String} {now : Int}
    (hafter : ∀ row ∈ rows, ∀ at_, clock.parseTs row.vanishedAt = some at_ →
      (clock.ts (now - cfg.window) < row.vanishedAt ↔ now - cfg.window < at_)) :
    within cfg.window now ((((rows.filter fun r => r.itemId = itemId ∧ r.status = "trade" ∧
        clock.ts (now - cfg.window) < r.vanishedAt).filterMap fun r =>
          (tradeOf clock r).map fun t => (r.order.subType, t)).filter fun t => t.1 = subType).map Prod.snd) =
      within cfg.window now ((rows.filter fun r => r.itemId = itemId ∧ r.order.subType = subType ∧
        r.status = "trade").filterMap (tradeOf clock)) := by
  simp only [within, List.filterMap_filter, List.filter_filterMap, List.map_filterMap]
  refine List.filterMap_congr fun row hrow => ?_
  by_cases hitem : row.itemId = itemId
  · by_cases hstatus : row.status = "trade"
    · by_cases hsub : row.order.subType = subType
      · cases hread : clock.parseTs row.vanishedAt with
        | none => simp [tradeOf, hread]
        | some at_ =>
            have hin := hafter row hrow at_ hread
            by_cases hlate : now - cfg.window < at_
            · simp [tradeOf, hread, hitem, hstatus, hsub, hin.mpr hlate, Option.filter_some]
            · simp [tradeOf, hread, hitem, hstatus, hsub, hlate, mt hin.mp hlate, Option.filter_some]
      · cases htrade : tradeOf clock row with
        | none => simp [hsub]
        | some t => by_cases hlate : clock.ts (now - cfg.window) < row.vanishedAt <;> simp [hsub, hlate]
    · simp [hstatus]
  · simp [hitem]

theorem maxTime_eq {times : List String} {latest : String} (hmem : latest ∈ times)
    (hmax : ∀ t ∈ times, t ≤ latest) : maxTime times = some latest := by
  have hall : times.all (fun t' => decide (t' ≤ latest)) = true :=
    List.all_eq_true.mpr fun t ht => decide_eq_true (hmax t ht)
  cases hfound : maxTime times with
  | none => exact absurd hall (List.find?_eq_none.mp hfound latest hmem)
  | some t =>
      have hbound := List.find?_some hfound
      have hle := of_decide_eq_true (List.all_eq_true.mp hbound latest hmem)
      exact congrArg some (String.le_antisymm (hmax t (List.mem_of_find?_eq_some hfound)) hle)

/-- The rows a sweep adds to `sweep_summary`. -/
def summaryRows (clock : Clock) (s : SweepInput) : List SummaryRow :=
  (summarize s.orders).map fun summary => ⟨s.itemId, summary, clock.ts s.sweptAt, s.lane⟩

theorem filter_summaryRows (sweeps : List SweepInput) (itemId : String) :
    ((sweeps.flatMap (summaryRows clock)).filter fun r => r.itemId = itemId) =
      (sweeps.filter fun s => s.itemId = itemId).flatMap (summaryRows clock) := by
  induction sweeps with
  | nil => rfl
  | cons s sweeps ih =>
      rw [List.flatMap_cons, List.filter_append, ih]
      by_cases hitem : s.itemId = itemId
      · have hall : (summaryRows clock s).filter (fun r => r.itemId = itemId) = summaryRows clock s := by
          refine List.filter_eq_self.mpr fun r hr => ?_
          obtain ⟨_, _, rfl⟩ := List.mem_map.mp hr
          exact decide_eq_true hitem
        rw [hall, List.filter_cons_of_pos (by simpa using hitem), List.flatMap_cons]
      · have hnone : (summaryRows clock s).filter (fun r => r.itemId = itemId) = [] := by
          refine List.filter_eq_nil_iff.mpr fun r hr => ?_
          obtain ⟨_, _, rfl⟩ := List.mem_map.mp hr
          simpa using hitem
        rw [hnone, List.filter_cons_of_neg (by simpa using hitem), List.nil_append]

theorem afterEvents_summary (db : Tables) (events : List Event) :
    (afterEvents clock cfg db events).sweepSummary =
      db.sweepSummary ++ (sweepsOf events).flatMap (summaryRows clock) := by
  induction events using List.reverseRecOn with
  | nil => exact (List.append_nil _).symm
  | append_singleton events e ih =>
      rw [afterEvents_snoc, sweepsOf_append]
      cases e with
      | resolve now =>
          have hsame : sweepsOf events ++ sweepsOf [.resolve now] = sweepsOf events := List.append_nil _
          rw [hsame, Event.apply, resolvePending_sweepSummary, ih]
      | sweep s =>
          have hone : (sweepsOf [.sweep s]).flatMap (summaryRows clock) = summaryRows clock s :=
            List.append_nil _
          rw [List.flatMap_append, hone, ← List.append_assoc, ← ih]
          rfl

theorem summarize_eq_nil_iff {orders : List V2Order} :
    summarize orders = [] ↔ ∀ o ∈ orders, o.visible = false := by
  have hkeys : ∀ visible : List V2Order, groupKeys visible = [] ↔ visible = [] := by
    intro visible
    rw [groupKeys, ← List.length_eq_zero_iff, List.length_mergeSort, List.length_eq_zero_iff,
      List.dedup_eq_nil, List.map_eq_nil_iff]
  rw [summarize, List.map_eq_nil_iff, hkeys, List.filter_eq_nil_iff]
  simp only [Bool.not_eq_true]

theorem mem_summarize_subType {orders : List V2Order} {subType : String} :
    subType ∈ (summarize orders).map SweepSummary.subType ↔
      ∃ o ∈ orders, o.visible = true ∧ o.subTypeKey = subType := by
  have hkey : ∀ (subType : String) (group : List V2Order),
      (summarizeGroup subType group).subType = subType := fun _ _ => rfl
  rw [summarize]
  simp only [List.map_map, Function.comp_def, hkey, List.map_id', groupKeys, List.mem_mergeSort,
    List.mem_dedup, List.mem_map, List.mem_filter, and_assoc]

/-- The summaries with the latest time are those of the latest sweep. -/
theorem latestSummaries_eq {db : Tables} {sweeps : List SweepInput} {itemId : String}
    (hlawful : clock.Lawful valid) (hvalid : ∀ s ∈ sweeps, valid s.sweptAt)
    (hsummary : db.sweepSummary = sweeps.flatMap (summaryRows clock))
    (hlatest : LatestCounts sweeps itemId) :
    latestSummaries db itemId =
      match latestSweep sweeps itemId with
      | none => []
      | some s => summarize s.orders := by
  have hrows : (db.sweepSummary.filter fun r => r.itemId = itemId) =
      (sweeps.filter fun s => s.itemId = itemId).flatMap (summaryRows clock) := by
    rw [hsummary]
    exact filter_summaryRows sweeps itemId
  have hmine : ∀ s ∈ sweeps.filter (fun s => s.itemId = itemId), valid s.sweptAt :=
    fun s hs => hvalid s (List.mem_filter.mp hs).1
  rw [latestSummaries, latestSweep, hrows]
  generalize hlist : (sweeps.filter fun s => decide (s.itemId = itemId)) = mine at hmine
  cases mine using List.reverseRecOn with
  | nil => rfl
  | append_singleton pre last =>
      have hold := hlatest pre last hlist
      have hlastvalid := hmine last (List.mem_append_right _ List.mem_cons_self)
      rw [List.getLast?_concat, List.flatMap_append, List.flatMap_cons, List.flatMap_nil, List.append_nil]
      dsimp only
      by_cases hshown : ∃ o ∈ last.orders, o.visible = true
      · -- the rows of the latest sweep, and older ones with an earlier time
        have hearlier : ∀ r ∈ pre.flatMap (summaryRows clock),
            r.sweptAt ≤ clock.ts last.sweptAt ∧ r.sweptAt ≠ clock.ts last.sweptAt := by
          intro r hr
          obtain ⟨s, hs, hrs⟩ := List.mem_flatMap.mp hr
          obtain ⟨summary, hmem, rfl⟩ := List.mem_map.mp hrs
          have hsome : ∃ o ∈ s.orders, o.visible = true := by
            by_contra hnone
            push Not at hnone
            rw [summarize_eq_nil_iff.mpr fun o ho => Bool.eq_false_iff.mpr (hnone o ho)] at hmem
            exact absurd hmem List.not_mem_nil
          have hsvalid := hmine s (List.mem_append_left _ hs)
          have hless := (hold s hs hsome).2
          refine ⟨(hlawful.order _ _ hsvalid hlastvalid).mpr hless.le, fun hsame => ?_⟩
          have hlt := (hlawful.lt_iff hsvalid hlastvalid).mpr hless
          rw [show clock.ts s.sweptAt = clock.ts last.sweptAt from hsame] at hlt
          exact String.lt_irrefl _ hlt
        have hlast : ∀ r ∈ summaryRows clock last, r.sweptAt = clock.ts last.sweptAt := by
          intro r hr
          obtain ⟨summary, _, rfl⟩ := List.mem_map.mp hr
          rfl
        obtain ⟨r, hr⟩ : ∃ r, r ∈ summaryRows clock last := by
          refine List.exists_mem_of_ne_nil _ ?_
          rw [summaryRows, ne_eq, List.map_eq_nil_iff, summarize_eq_nil_iff]
          obtain ⟨o, ho, hv⟩ := hshown
          exact fun h => Bool.false_ne_true ((h o ho).symm.trans hv)
        have hmax : maxTime ((pre.flatMap (summaryRows clock) ++ summaryRows clock last).map
            SummaryRow.sweptAt) = some (clock.ts last.sweptAt) := by
          refine maxTime_eq ?_ ?_
          · rw [← hlast r hr]
            exact List.mem_map_of_mem (List.mem_append_right _ hr)
          · intro t ht
            obtain ⟨r', hr', rfl⟩ := List.mem_map.mp ht
            rcases List.mem_append.mp hr' with hr' | hr'
            · exact (hearlier r' hr').1
            · exact (hlast r' hr').symm ▸ String.le_refl _
        rw [hmax]
        dsimp only
        rw [List.filter_append, List.filter_eq_nil_iff.mpr fun r' hr' => by simp [(hearlier r' hr').2],
          List.filter_eq_self.mpr fun r' hr' => by simp [hlast r' hr'], List.nil_append, summaryRows,
          List.map_map]
        simp [Function.comp_def]
      · have hnone : ∀ s ∈ pre ++ [last], summaryRows clock s = [] := by
          intro s hs
          rw [summaryRows, List.map_eq_nil_iff, summarize_eq_nil_iff]
          intro o ho
          rw [Bool.eq_false_iff]
          intro hv
          rcases List.mem_append.mp hs with hs | hs
          · exact hshown (hold s hs ⟨o, ho, hv⟩).1
          · rw [List.mem_singleton.mp hs] at ho
            exact hshown ⟨o, ho, hv⟩
        have hpre : pre.flatMap (summaryRows clock) = [] :=
          List.flatMap_eq_nil_iff.mpr fun s hs => hnone s (List.mem_append_left _ hs)
        have hlastnil := hnone last (List.mem_append_right _ List.mem_cons_self)
        have hsummaries : summarize last.orders = [] := List.map_eq_nil_iff.mp hlastnil
        rw [hpre, hlastnil, hsummaries]
        rfl

theorem spreadFor_latestSummaries {db : Tables} {sweeps : List SweepInput} {itemId : String}
    (hlatest : latestSummaries db itemId =
      match latestSweep sweeps itemId with
      | none => []
      | some s => summarize s.orders) (subType : String) :
    spreadFor (latestSummaries db itemId) subType = latestSpread sweeps itemId subType := by
  rw [hlatest, latestSpread]
  cases latestSweep sweeps itemId with
  | none => rfl
  | some s => rfl

theorem within_within {window now : Int} {trades : List Trade} :
    within window now (within window now trades) = within window now trades := by
  refine List.filter_eq_self.mpr fun t ht => ?_
  exact (List.mem_filter.mp ht).2

end Reads

/-! ### The rows after a recompute -/

section Rows

variable {F : Type} {num : Floats F} {clock : Clock} {cfg : StatsConfig} {valid : Int → Prop}

theorem tables_afterJobs (db : Database F) (jobs : List Job) :
    (afterJobs num clock cfg db jobs).tables = afterEvents clock cfg db.tables (eventsOf jobs) := by
  induction jobs generalizing db with
  | nil => rfl
  | cons job jobs ih =>
      rw [afterJobs, List.foldl_cons, ← afterJobs, ih]
      cases job with
      | event e => rfl
      | recompute itemId now => rfl

theorem mem_statGroups {trades : List (String × Trade)} {summaries : List SweepSummary} {subType : String} :
    subType ∈ statGroups trades summaries ↔
      subType ∈ trades.map Prod.fst ∨ subType ∈ summaries.map SweepSummary.subType := by
  rw [statGroups, List.mem_mergeSort, List.mem_dedup, List.mem_append]

/-- A row of the item is one of those just computed, or an old one of a sub-type that was not met. -/
theorem recompute_row {db : Database F} {itemId : String} {now : Int} {row : ItemStats F}
    (hrow : row ∈ (recomputeItemStats num clock cfg db itemId now).itemStats.rows)
    (hitem : row.itemId = itemId) :
    row ∈ statRows num clock cfg db.tables itemId now ∨
      (row ∈ db.itemStats.rows ∧ row.subType ∉ statGroups (recentTrades clock cfg db.tables itemId now)
        (latestSummaries db.tables itemId)) := by
  have hlookup := Table.lookup_of_mem hrow
  rw [recomputeItemStats, Table.lookup_foldl_insertOrReplace] at hlookup
  cases hfound : (statRows num clock cfg db.tables itemId now).reverse.find?
      fun r => (r.itemId, r.subType) = (row.itemId, row.subType) with
  | some r =>
      rw [hfound, Option.some_or] at hlookup
      rw [← Option.some.inj hlookup]
      exact .inl (List.mem_reverse.mp (List.mem_of_find?_eq_some hfound))
  | none =>
      rw [hfound, Option.none_or] at hlookup
      refine .inr ⟨Table.mem_of_lookup hlookup, fun hmem => ?_⟩
      have hnot := List.find?_eq_none.mp hfound _
        (List.mem_reverse.mpr (List.mem_map_of_mem hmem))
      simp [computeItemStats, hitem] at hnot

/-- The text of a vanish compares with the start of a window as its time does. -/
theorem stamp_after_iff {start : Int} {s : SweepInput} (hlawful : clock.Lawful valid)
    (hs : valid s.sweptAt) (hstart : valid start) :
    clock.ts start < clock.ts s.sweptAt ↔ start < wholeSeconds s.sweptAt := by
  rw [hlawful.lt_iff hstart hs]
  simp only [wholeSeconds]
  omega

/-- After a recompute every row of the item is current, if the sub-type of every row is met again and the
latest sweep of the item wrote the latest summaries. -/
theorem recompute_current (num : Floats F) (clock : Clock) (cfg : StatsConfig) (valid : Int → Prop)
    (db : Database F) (jobs : List Job) (itemId : String) (now : Int) (hlawful : clock.Lawful valid)
    (hblank : Blank db.tables) (hsummary : db.tables.sweepSummary = [])
    (hspells : ∀ s ∈ sweepsOf (eventsOf jobs), valid s.sweptAt) (hnow : valid (now - cfg.window))
    (hlatest : LatestCounts (sweepsOf (eventsOf jobs)) itemId)
    (hmet : MetAgain clock cfg (afterJobs num clock cfg db jobs) (sweepsOf (eventsOf jobs)) itemId now) :
    Current num clock cfg (recomputeItemStats num clock cfg (afterJobs num clock cfg db jobs) itemId now)
      (sweepsOf (eventsOf jobs)) itemId now := by
  have htables := @tables_afterJobs F num clock cfg db jobs
  generalize hstate : afterJobs num clock cfg db jobs = state at *
  have hsummaries := latestSummaries_eq hlawful hspells
    (show state.tables.sweepSummary = _ by rw [htables, afterEvents_summary, hsummary, List.nil_append])
    hlatest
  have hafter : ∀ row ∈ state.tables.vanishedOrders, ∀ at_, clock.parseTs row.vanishedAt = some at_ →
      (clock.ts (now - cfg.window) < row.vanishedAt ↔ now - cfg.window < at_) := by
    intro row hrow at_ hread
    rw [htables] at hrow
    obtain ⟨s, hs, hstamp⟩ := vanish_stamped hblank (eventsOf jobs) row hrow
    have hreads := hlawful.reads s.sweptAt (hspells s hs)
    rw [Clock.Reads, ← hstamp, hread] at hreads
    rw [hstamp, Option.some.inj hreads]
    exact stamp_after_iff hlawful (hspells s hs) hnow
  have htrades := fun subType => @within_recent clock cfg state.tables.vanishedOrders itemId subType now hafter
  intro row hrow hitem
  have hcomputed : row = computeItemStats num clock itemId row.subType
      (tradesInWindow clock cfg state.tables itemId row.subType now)
      (latestSpread (sweepsOf (eventsOf jobs)) itemId row.subType) (firstSweptAt clock state.tables itemId)
      now cfg := by
    rcases recompute_row hrow hitem with hnew | ⟨hold, hmissed⟩
    · obtain ⟨subType, hsub, rfl⟩ := List.mem_map.mp hnew
      change computeItemStats num clock itemId subType _ _ _ now cfg =
        computeItemStats num clock itemId subType _ _ _ now cfg
      rw [spreadFor_latestSummaries hsummaries subType]
      exact computeItemStats_congr ((htrades subType).trans within_within.symm)
    · exfalso
      refine hmissed (mem_statGroups.mpr ?_)
      rcases hmet row hold hitem with hin | ⟨s, hs, o, ho, hv, hkey⟩
      · left
        rw [tradesInWindow, tradesOf, ← htrades row.subType] at hin
        obtain ⟨t, ht⟩ := List.exists_mem_of_ne_nil _ hin
        obtain ⟨p, hp, -⟩ := List.mem_map.mp (List.mem_filter.mp ht).1
        obtain ⟨hp, hsub⟩ := List.mem_filter.mp hp
        rw [← of_decide_eq_true hsub]
        exact List.mem_map_of_mem hp
      · right
        have hshown : row.subType ∈ (summarize s.orders).map SweepSummary.subType :=
          mem_summarize_subType.mpr ⟨o, ho, hv, hkey⟩
        rw [hsummaries, hs]
        exact hshown
  refine ⟨hcomputed, fun hwarm => ?_⟩
  rw [hcomputed] at hwarm
  have hcount := computeItemStats_warm hwarm
  rwa [tradesInWindow, within_within] at hcount

end Rows

/-! ### A sub-type that goes quiet -/

def ratFloats : Floats Rat := ⟨fun n => n, List.sum, (· - ·), (· / ·)⟩

/-- One order of `item1`, with its quantity. -/
def stocked (id : String) (rank quantity : Int) : V2Order := { offered id with quantity, rank := some rank }

def stockSweep (sweptAt : Int) (o : V2Order) : Job :=
  .event (.sweep ⟨"item1", "hot", [o], sweptAt, 300, fun g e => decide (3 * e < g)⟩)

def weekClock : Clock := .ofSeconds <|
  [(0, "1970-01-01T00:00:00Z"), (600, "1970-01-01T00:10:00Z"), (1123260, "1970-01-14T00:01:00Z"),
    (1728000, "1970-01-21T00:00:00Z"), (1728060, "1970-01-21T00:01:00Z")] ++
  ["00", "01", "02", "03", "04", "05", "06", "07", "08", "09", "10"].zipIdx.map fun (text, minute) =>
    (604800 + 60 * (minute : Int), "1970-01-08T00:" ++ text ++ ":00Z")

/-- The first sweep sees twelve of `s1`; a week later one is sold a minute, and then the statistics are
written. -/
def busyWeek : List Job :=
  stockSweep 0 (stocked "s1" 0 12) ::
    (List.range 10).map (fun (m : Nat) => stockSweep (days 7 + minutes m) (stocked "s1" 0 (11 - m))) ++
    [.recompute "item1" (days 7 + minutes 10)]

def emptyDatabase : Database Rat := ⟨unsweptTables, .empty, .empty⟩

/-- Two weeks later only another rank is listed. The row of the first rank stays, and stays warm. -/
theorem quiet_sub_type_stays_warm :
    ¬ ∀ jobs now, Current ratFloats weekClock {}
      (recomputeItemStats ratFloats weekClock {} (afterJobs ratFloats weekClock {} emptyDatabase jobs) "item1" now)
      (sweepsOf (eventsOf jobs)) "item1" now := by
  intro h
  have hstale : ∃ row ∈ (recomputeItemStats ratFloats weekClock {} (afterJobs ratFloats weekClock {} emptyDatabase
      (busyWeek ++ [stockSweep (days 20) (stocked "s2" 5 1)])) "item1" (days 20 + minutes 1)).itemStats.rows,
      row.itemId = "item1" ∧ row.warm = true ∧ (tradesInWindow weekClock {}
        (recomputeItemStats ratFloats weekClock {} (afterJobs ratFloats weekClock {} emptyDatabase
          (busyWeek ++ [stockSweep (days 20) (stocked "s2" 5 1)])) "item1" (days 20 + minutes 1)).tables
        "item1" row.subType (days 20 + minutes 1)).length = 0 := by
    decide +kernel
  obtain ⟨row, hrow, hitem, hwarm, hnone⟩ := hstale
  have hcount := (h _ _ row hrow hitem).2 hwarm
  rw [hnone] at hcount
  exact absurd hcount (by decide)

/-- The instants that the samples spell. -/
def Spelled (t : Int) : Prop :=
  t ∈ [0, minutes 10] ++ (List.range 11).map fun (m : Nat) => days 7 + minutes m

theorem weekClock_lawful : weekClock.Lawful Spelled where
  reads := by
    unfold Spelled Clock.Reads
    decide +kernel
  order := by
    have h : ∀ t, Spelled t → ∀ t', Spelled t' →
        (weekClock.ts t ≤ weekClock.ts t' ↔ wholeSeconds t ≤ wholeSeconds t') := by
      unfold Spelled
      decide +kernel
    exact fun t t' ht ht' => h t ht t' ht'

theorem busyWeek_latest : LatestCounts (sweepsOf (eventsOf busyWeek)) "item1" := by
  intro pre last hsplit
  have hpre : pre = ((sweepsOf (eventsOf busyWeek)).filter fun s => s.itemId = "item1").dropLast := by
    rw [hsplit, List.dropLast_concat]
  have hlast : ((sweepsOf (eventsOf busyWeek)).filter fun s => s.itemId = "item1").getLast? = some last := by
    rw [hsplit, List.getLast?_concat]
  have hall : ∀ s ∈ ((sweepsOf (eventsOf busyWeek)).filter fun s => s.itemId = "item1").dropLast,
      (((sweepsOf (eventsOf busyWeek)).filter fun s => s.itemId = "item1").getLast?.all fun l =>
        decide ((∃ o ∈ l.orders, o.visible = true) ∧ wholeSeconds s.sweptAt < wholeSeconds l.sweptAt)) = true := by
    decide +kernel
  intro s hs _
  rw [hpre] at hs
  have hthis := hall s hs
  rw [hlast] at hthis
  exact of_decide_eq_true hthis

theorem recompute_current_busy_week :
    Current ratFloats weekClock {}
      (recomputeItemStats ratFloats weekClock {} (afterJobs ratFloats weekClock {} emptyDatabase busyWeek) "item1"
        (days 7 + minutes 10))
      (sweepsOf (eventsOf busyWeek)) "item1" (days 7 + minutes 10) := by
  have hmet : ∀ row ∈ (afterJobs ratFloats weekClock {} emptyDatabase busyWeek).itemStats.rows,
      row.itemId = "item1" → tradesInWindow weekClock {}
        (afterJobs ratFloats weekClock {} emptyDatabase busyWeek).tables "item1" row.subType
        (days 7 + minutes 10) ≠ [] := by
    decide +kernel
  exact recompute_current ratFloats weekClock {} Spelled emptyDatabase busyWeek "item1" (days 7 + minutes 10)
    weekClock_lawful ⟨rfl, rfl⟩ rfl (by unfold Spelled; decide +kernel) (by unfold Spelled; decide +kernel)
    busyWeek_latest fun row hrow hitem => .inl (hmet row hrow hitem)

end Quantframe.Collector
