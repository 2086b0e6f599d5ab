import Quantframe.Collector.Recompute

/-!
# Maintenance ticks and the daily rollup

An hourly run rebuilds the days from two before its own on. A vanish that becomes a trade later than
that is not counted any more.
-/

namespace Quantframe.Collector

open Lib

def rawSummaryRetentionDays : Int := 30

def vanishedRetentionDays : Int := 90

section Source

variable {F : Type} (num : Floats F) (clock : Clock) (cfg : StatsConfig)

/-- The items that `resolve_pending` reports, in order. -/
def resolvedItems (db : Tables) (now : Int) : List String :=
  let due := db.vanishedOrders.filter fun r =>
    decide (Due clock cfg now r) && (clock.parseTs r.vanishedAt).isSome
  (due.map VanishedRow.itemId).dedup.mergeSort fun a b => decide (a ≤ b)

def resolveAndRecompute (db : Database F) (now : Int) : Database F :=
  (resolvedItems clock cfg db.tables now).foldl
    (fun db itemId => recomputeItemStats num clock cfg db itemId now)
    { db with tables := resolvePending clock cfg db.tables now }

/-- The start of the day two days before `now`. -/
def rollupFrom (now : Int) : Int := dateNaive now * days 1 - days 2

/-- The trade vanishes of the rollup, with their items and sub-types. -/
def rollupTrades (db : Tables) (now : Int) : List ((String × String) × Trade) :=
  (db.vanishedOrders.filter fun r => r.status = "trade" ∧ clock.ts (rollupFrom now) ≤ r.vanishedAt).filterMap
    fun r => (tradeOf clock r).map fun t => ((r.itemId, r.order.subType), t)

def rollupGroups (trades : List ((String × String) × Trade)) : List (String × String) :=
  (trades.map Prod.fst).dedup.mergeSort fun a b => decide (a.1 < b.1 ∨ (a.1 = b.1 ∧ a.2 ≤ b.2))

def tradesFor (trades : List ((String × String) × Trade)) (key : String × String) : List Trade :=
  (trades.filter fun t => t.1 = key).map Prod.snd

def rollupRows (db : Tables) (now : Int) : List (DailyRow F) :=
  let trades := rollupTrades clock db now
  (rollupGroups trades).flatMap fun key =>
    (dailyRollup num (tradesFor trades key)).map fun stat => ⟨key.1, key.2, stat⟩

/-- Rebuilds `item_stats_daily` from trades since the start of the day two days before `now`. -/
def rollupDaily (db : Database F) (now : Int) : Database F :=
  { db with
    itemStatsDaily := (rollupRows num clock db.tables now).foldl Table.insertOrReplace db.itemStatsDaily }

/-- Deletes raw summaries older than 30 days and vanished orders older than 90 days. -/
def applyRetention (db : Database F) (now : Int) : Database F :=
  { db with
    tables := { db.tables with
      sweepSummary := db.tables.sweepSummary.filter fun r =>
        ¬ r.sweptAt < clock.ts (now - days rawSummaryRetentionDays)
      vanishedOrders := db.tables.vanishedOrders.filter fun r =>
        ¬ r.vanishedAt < clock.ts (now - days vanishedRetentionDays) } }

/-- The hourly rollup of the summaries writes a table of its own. -/
def hourly (db : Database F) (now : Int) : Database F :=
  applyRetention clock (rollupDaily num clock db now) now

/-- What happens up to an hourly run, and the time of its tick. -/
structure Period where
  jobs : List Job
  now : Int

/-- The tick resolves, then rolls up. -/
def Period.apply (db : Database F) (p : Period) : Database F :=
  hourly num clock (resolveAndRecompute num clock cfg (afterJobs num clock cfg db p.jobs) p.now) p.now

/-- The database after the last hourly run of a history. -/
def afterPeriods (db : Database F) (periods : List Period) : Database F :=
  periods.foldl (Period.apply num clock cfg) db

end Source

/-! ### What a complete rollup is -/

section Statements

variable {F : Type} (num : Floats F) (clock : Clock) (cfg : StatsConfig)

/-- The row is a trade of that item and sub-type on that day. -/
def TradeOn (itemId subType : String) (day : Int) (row : VanishedRow) : Prop :=
  row.itemId = itemId ∧ row.order.subType = subType ∧ row.status = "trade" ∧
    (clock.parseTs row.vanishedAt).map dateNaive = some day

instance (itemId subType : String) (day : Int) (row : VanishedRow) :
    Decidable (TradeOn clock itemId subType day row) :=
  inferInstanceAs (Decidable (_ ∧ _ ∧ _ ∧ _))

/-- The vanish rows with status trade of a day. -/
def tradesOn (db : Tables) (itemId subType : String) (day : Int) : Nat :=
  db.vanishedOrders.countP fun r => TradeOn clock itemId subType day r

/-- `item_stats_daily.volume`. -/
def volumeOn (db : Database F) (itemId subType : String) (day : Int) : Option Int :=
  (db.itemStatsDaily.lookup (itemId, subType, day)).map fun row => row.stat.volume

/-- The instants of a period whose spelling matters are valid. -/
structure Period.Spelled (valid : Int → Prop) (p : Period) : Prop where
  sweeps : ∀ s ∈ sweepsOf (eventsOf p.jobs), valid s.sweptAt
  start : valid (rollupFrom p.now)
  cut : valid (p.now - days vanishedRetentionDays)

/-- No run has been made more than the retention time after the start of the day. -/
def Retained (periods : List Period) (day : Int) : Prop :=
  ∀ p ∈ periods, p.now - days vanishedRetentionDays ≤ day * days 1

/-- The run rebuilds the day. -/
def Period.Covers (p : Period) (day : Int) : Prop := dateNaive p.now - 2 ≤ day

instance (p : Period) (day : Int) : Decidable (p.Covers day) := inferInstanceAs (Decidable (_ ≤ _))

/-- Every retained day with trades has its volume. -/
def Complete (db : Database F) (periods : List Period) : Prop :=
  ∀ itemId subType day, Retained periods day →
    0 < tradesOn clock (afterPeriods num clock cfg db periods).tables itemId subType day →
      volumeOn (afterPeriods num clock cfg db periods) itemId subType day =
        some (tradesOn clock (afterPeriods num clock cfg db periods).tables itemId subType day : Int)

end Statements

/-! ### What the jobs before a run leave -/

section Jobs

variable {F : Type} {num : Floats F} {clock : Clock} {cfg : StatsConfig} {valid : Int → Prop}
  {itemId subType : String} {day : Int}

/-- The time of every vanish is spelled from a valid instant. -/
def Stamped (clock : Clock) (valid : Int → Prop) (db : Tables) : Prop :=
  ∀ row ∈ db.vanishedOrders, ∃ t, valid t ∧ row.vanishedAt = clock.ts t

theorem countP_le_mapIdx {α : Type} {p : α → Bool} (l : List α) (f : Nat → α → α)
    (hf : ∀ j a, p a = true → p (f j a) = true) : l.countP p ≤ (l.mapIdx f).countP p := by
  induction l generalizing f with
  | nil => exact le_refl _
  | cons a l ih =>
      have hrest := ih (fun j => f (j + 1)) fun j b hb => hf (j + 1) b hb
      rw [List.mapIdx_cons, List.countP_cons, List.countP_cons]
      by_cases ha : p a = true
      · rw [if_pos ha, if_pos (hf 0 a ha)]
        exact Nat.add_le_add_right hrest 1
      · rw [if_neg ha]
        exact hrest.trans (Nat.le_add_right _ _)

theorem resolvePending_mapIdx (db : Tables) (now : Int) :
    (resolvePending clock cfg db now).vanishedOrders =
      db.vanishedOrders.mapIdx fun j row =>
        if Due clock cfg now row then decided clock cfg db j row else row := by
  refine List.ext_getElem? fun j => ?_
  rw [resolvePending_getElem?, List.getElem?_mapIdx]

/-- A trade stays a trade. -/
theorem tradesOn_event (db : Tables) (e : Event) :
    tradesOn clock db itemId subType day ≤ tradesOn clock (e.apply clock cfg db) itemId subType day := by
  cases e with
  | sweep s =>
      obtain ⟨gap, status, hvanished, _⟩ := applySweep_vanished clock db s
      rw [tradesOn, tradesOn, Event.apply, hvanished, List.countP_append]
      exact Nat.le_add_right _ _
  | resolve now =>
      rw [tradesOn, tradesOn, Event.apply, resolvePending_mapIdx]
      refine countP_le_mapIdx _ _ fun j row htrade => ?_
      have hstatus := (of_decide_eq_true htrade).2.2.1
      rw [if_neg]
      · exact htrade
      · rintro ⟨hpending, _⟩
        rw [hpending] at hstatus
        exact absurd hstatus (by decide)

theorem tradesOn_events (db : Tables) (events : List Event) :
    tradesOn clock db itemId subType day ≤
      tradesOn clock (afterEvents clock cfg db events) itemId subType day := by
  induction events using List.reverseRecOn with
  | nil => exact le_refl _
  | append_singleton events e ih =>
      rw [afterEvents_snoc]
      exact ih.trans (tradesOn_event _ e)

theorem Stamped.event {db : Tables} (h : Stamped clock valid db) {e : Event}
    (he : ∀ s ∈ sweepsOf [e], valid s.sweptAt) : Stamped clock valid (e.apply clock cfg db) := by
  intro row hrow
  cases e with
  | sweep s =>
      obtain ⟨gap, status, hvanished, _⟩ := applySweep_vanished clock db s
      rw [Event.apply, hvanished] at hrow
      rcases List.mem_append.mp hrow with hold | hnew
      · exact h row hold
      · refine ⟨s.sweptAt, he s List.mem_cons_self, ?_⟩
        rcases List.mem_append.mp hnew with hfull | hpiece
        · obtain ⟨o, _, rfl⟩ := List.mem_map.mp hfull
          rfl
        · obtain ⟨c, _, rfl⟩ := List.mem_map.mp hpiece
          rfl
  | resolve now =>
      obtain ⟨old, hold, hfact⟩ := (sameFacts_resolvePending db now).mem hrow
      obtain ⟨t, ht, hat⟩ := h old hold
      exact ⟨t, ht, (fields_of_facts hfact).2.2.1.trans hat⟩

theorem Stamped.events {db : Tables} (h : Stamped clock valid db) {events : List Event}
    (hevents : ∀ s ∈ sweepsOf events, valid s.sweptAt) : Stamped clock valid (afterEvents clock cfg db events) := by
  induction events using List.reverseRecOn with
  | nil => exact h
  | append_singleton events e ih =>
      rw [sweepsOf_append] at hevents
      rw [afterEvents_snoc]
      exact (ih fun s hs => hevents s (List.mem_append_left _ hs)).event fun s hs =>
        hevents s (List.mem_append_right _ hs)

theorem recomputes_leave (items : List String) (now : Int) (db : Database F) :
    (items.foldl (fun db itemId => recomputeItemStats num clock cfg db itemId now) db).tables = db.tables ∧
      (items.foldl (fun db itemId => recomputeItemStats num clock cfg db itemId now) db).itemStatsDaily =
        db.itemStatsDaily := by
  induction items generalizing db with
  | nil => exact ⟨rfl, rfl⟩
  | cons itemId items ih => exact ih _

theorem itemStatsDaily_afterJobs (db : Database F) (jobs : List Job) :
    (afterJobs num clock cfg db jobs).itemStatsDaily = db.itemStatsDaily := by
  induction jobs generalizing db with
  | nil => rfl
  | cons job jobs ih =>
      rw [afterJobs, List.foldl_cons, ← afterJobs, ih]
      cases job with
      | event e => rfl
      | recompute itemId now => rfl

/-- The tables that the rollup of a tick reads. -/
theorem tick_tables (db : Database F) (p : Period) :
    (resolveAndRecompute num clock cfg (afterJobs num clock cfg db p.jobs) p.now).tables =
      afterEvents clock cfg db.tables (eventsOf p.jobs ++ [.resolve p.now]) := by
  rw [resolveAndRecompute, (recomputes_leave _ _ _).1, afterEvents_snoc, tables_afterJobs]
  rfl

theorem tick_itemStatsDaily (db : Database F) (p : Period) :
    (resolveAndRecompute num clock cfg (afterJobs num clock cfg db p.jobs) p.now).itemStatsDaily =
      db.itemStatsDaily := by
  rw [resolveAndRecompute, (recomputes_leave _ _ _).2]
  exact itemStatsDaily_afterJobs db p.jobs

end Jobs

/-! ### What the rollup and the retention do -/

section Run

variable {F : Type} {num : Floats F} {clock : Clock} {cfg : StatsConfig} {valid : Int → Prop}
  {itemId subType : String} {day : Int}

/-- The rollup reads the trades from the start of a day on. -/
theorem rollupFrom_le_iff {now t : Int} (hlawful : clock.Lawful valid) (ht : valid t)
    (hfrom : valid (rollupFrom now)) :
    clock.ts (rollupFrom now) ≤ clock.ts t ↔ dateNaive now - 2 ≤ dateNaive (wholeSeconds t) := by
  rw [hlawful.order _ _ hfrom ht]
  simp only [wholeSeconds, rollupFrom, dateNaive, days]
  omega

theorem length_pricesOn (trades : List Trade) :
    (pricesOn day trades).length = trades.countP fun t => dateNaive t.tradedAt = day := by
  rw [pricesOn, List.length_map, List.countP_eq_length_filter]

/-- The trades of a day that the rollup reads: all of them, or none. -/
theorem rollup_count {db : Tables} {now : Int} (hlawful : clock.Lawful valid)
    (hstamped : Stamped clock valid db) (hfrom : valid (rollupFrom now)) :
    (pricesOn day (tradesFor (rollupTrades clock db now) (itemId, subType))).length =
      if dateNaive now - 2 ≤ day then tradesOn clock db itemId subType day else 0 := by
  have hpoint : ∀ row ∈ db.vanishedOrders,
      ((((tradeOf clock row).map fun t => ((row.itemId, row.order.subType), t)).map fun t =>
          decide (dateNaive t.2.tradedAt = day) && decide (t.1 = (itemId, subType))).getD false &&
        decide (row.status = "trade" ∧ clock.ts (rollupFrom now) ≤ row.vanishedAt)) = true ↔
      dateNaive now - 2 ≤ day ∧ TradeOn clock itemId subType day row := by
    intro row hrow
    obtain ⟨t, ht, hat⟩ := hstamped row hrow
    have hreads := hlawful.reads t ht
    rw [Clock.Reads] at hreads
    simp only [tradeOf, hreads, Option.map_some, Option.getD_some, Bool.and_eq_true, decide_eq_true_eq,
      Prod.mk.injEq, TradeOn, hat, rollupFrom_le_iff hlawful ht hfrom, Option.some.injEq]
    constructor
    · rintro ⟨⟨hday, hitem, hsub⟩, hstatus, hlate⟩
      exact ⟨hday ▸ hlate, hitem, hsub, hstatus, hday⟩
    · rintro ⟨hlate, hitem, hsub, hstatus, hday⟩
      exact ⟨⟨hday, hitem, hsub⟩, hstatus, hday ▸ hlate⟩
  rw [length_pricesOn, tradesFor, List.countP_map, List.countP_filter, rollupTrades, List.countP_filterMap,
    List.countP_filter]
  by_cases hcovered : dateNaive now - 2 ≤ day
  · rw [if_pos hcovered, tradesOn]
    refine List.countP_congr fun row hrow => ?_
    exact (hpoint row hrow).trans (by simp only [hcovered, true_and, decide_eq_true_eq])
  · rw [if_neg hcovered, List.countP_eq_zero]
    intro row hrow htrue
    exact hcovered ((hpoint row hrow).mp htrue).1

theorem mem_tradeDays_iff {trades : List Trade} :
    day ∈ tradeDays trades ↔ 0 < (pricesOn day trades).length := by
  rw [mem_tradeDays, length_pricesOn, List.countP_pos_iff]
  simp only [decide_eq_true_eq]

/-- A row of the rollup is of a day with trades, and has what they make of it. -/
theorem mem_rollupRows {db : Tables} {now : Int} {row : DailyRow F} :
    row ∈ rollupRows num clock db now ↔
      0 < (pricesOn row.stat.day (tradesFor (rollupTrades clock db now) (row.itemId, row.subType))).length ∧
        row.stat = dayStat num row.stat.day
          (pricesOn row.stat.day (tradesFor (rollupTrades clock db now) (row.itemId, row.subType))) := by
  simp only [rollupRows, List.mem_flatMap, List.mem_map, dailyRollup, rollupGroups, List.mem_mergeSort,
    List.mem_dedup]
  constructor
  · rintro ⟨key, _, _, ⟨day, hday, rfl⟩, rfl⟩
    exact ⟨mem_tradeDays_iff.mp hday, rfl⟩
  · rintro ⟨hpos, hstat⟩
    have hday := mem_tradeDays_iff.mpr hpos
    obtain ⟨t, ht, _⟩ := mem_tradeDays.mp hday
    obtain ⟨entry, hentry, _⟩ := List.mem_map.mp ht
    obtain ⟨hmem, hkey⟩ := List.mem_filter.mp hentry
    refine ⟨(row.itemId, row.subType), ⟨entry, hmem, of_decide_eq_true hkey⟩, row.stat,
      ⟨row.stat.day, hday, hstat.symm⟩, rfl⟩

theorem volumeOn_rollup (db : Database F) (now : Int) :
    volumeOn (rollupDaily num clock db now) itemId subType day =
      if 0 < (pricesOn day (tradesFor (rollupTrades clock db.tables now) (itemId, subType))).length then
        some ((pricesOn day (tradesFor (rollupTrades clock db.tables now) (itemId, subType))).length : Int)
      else volumeOn db itemId subType day := by
  rw [volumeOn, rollupDaily, Table.lookup_foldl_insertOrReplace]
  cases hfound : (rollupRows num clock db.tables now).reverse.find?
      fun r => (r.itemId, r.subType, r.stat.day) = (itemId, subType, day) with
  | some row =>
      have hbound := List.find?_some hfound
      have hkey := of_decide_eq_true hbound
      simp only [Prod.mk.injEq] at hkey
      obtain ⟨rfl, rfl, rfl⟩ := hkey
      obtain ⟨hpos, hstat⟩ := mem_rollupRows.mp (List.mem_reverse.mp (List.mem_of_find?_eq_some hfound))
      rw [if_pos hpos, Option.some_or, Option.map_some, hstat]
      rfl
  | none =>
      rw [if_neg, Option.none_or, volumeOn]
      intro hpos
      refine absurd (decide_eq_true rfl) (List.find?_eq_none.mp hfound ⟨itemId, subType, dayStat num day
        (pricesOn day (tradesFor (rollupTrades clock db.tables now) (itemId, subType)))⟩ ?_)
      exact List.mem_reverse.mpr (mem_rollupRows.mpr ⟨hpos, rfl⟩)

/-- The retention keeps the vanishes of the retained days. -/
theorem tradesOn_retention {db : Database F} {now : Int} (hlawful : clock.Lawful valid)
    (hstamped : Stamped clock valid db.tables) (hcut : valid (now - days vanishedRetentionDays))
    (hkept : now - days vanishedRetentionDays ≤ day * days 1) :
    tradesOn clock (applyRetention clock db now).tables itemId subType day =
      tradesOn clock db.tables itemId subType day := by
  rw [tradesOn, tradesOn, applyRetention, List.countP_filter]
  refine List.countP_congr fun row hrow => ?_
  simp only [Bool.and_eq_true, decide_eq_true_eq, and_iff_left_iff_imp]
  rintro ⟨_, _, _, hday⟩
  obtain ⟨t, ht, hat⟩ := hstamped row hrow
  have hreads := hlawful.reads t ht
  rw [Clock.Reads, ← hat] at hreads
  rw [hreads, Option.map_some, Option.some.injEq, dateNaive] at hday
  rw [hat, hlawful.lt_iff ht hcut]
  have hcutoff := wholeSeconds_le (now - days vanishedRetentionDays)
  simp only [days] at hday hkept hcutoff ⊢
  omega

theorem Stamped.tick {db : Database F} {p : Period} (h : Stamped clock valid db.tables)
    (hspelled : p.Spelled valid) : Stamped clock valid
      (resolveAndRecompute num clock cfg (afterJobs num clock cfg db p.jobs) p.now).tables := by
  rw [tick_tables]
  refine h.events fun s hs => hspelled.sweeps s ?_
  rw [sweepsOf_append] at hs
  exact (List.mem_append.mp hs).resolve_right List.not_mem_nil

theorem Stamped.period {db : Database F} {p : Period} (h : Stamped clock valid db.tables)
    (hspelled : p.Spelled valid) : Stamped clock valid (p.apply num clock cfg db).tables :=
  fun row hrow => h.tick hspelled row (List.mem_filter.mp hrow).1

theorem tradesOn_period {db : Database F} {p : Period} (hlawful : clock.Lawful valid)
    (hstamped : Stamped clock valid db.tables) (hspelled : p.Spelled valid)
    (hkept : p.now - days vanishedRetentionDays ≤ day * days 1) :
    tradesOn clock (p.apply num clock cfg db).tables itemId subType day =
      tradesOn clock (resolveAndRecompute num clock cfg (afterJobs num clock cfg db p.jobs) p.now).tables
        itemId subType day := by
  rw [Period.apply, hourly]
  exact tradesOn_retention hlawful (hstamped.tick hspelled) hspelled.cut hkept

theorem tradesOn_period_le {db : Database F} {p : Period} (hlawful : clock.Lawful valid)
    (hstamped : Stamped clock valid db.tables) (hspelled : p.Spelled valid)
    (hkept : p.now - days vanishedRetentionDays ≤ day * days 1) :
    tradesOn clock db.tables itemId subType day ≤
      tradesOn clock (p.apply num clock cfg db).tables itemId subType day := by
  rw [tradesOn_period hlawful hstamped hspelled hkept, tick_tables]
  exact tradesOn_events _ _

/-- One run writes the volume of the days it covers, and no other. -/
theorem volumeOn_period {db : Database F} {p : Period} (hlawful : clock.Lawful valid)
    (hstamped : Stamped clock valid db.tables) (hspelled : p.Spelled valid)
    (hkept : p.now - days vanishedRetentionDays ≤ day * days 1) :
    volumeOn (p.apply num clock cfg db) itemId subType day =
      if p.Covers day ∧ 0 < tradesOn clock (p.apply num clock cfg db).tables itemId subType day then
        some (tradesOn clock (p.apply num clock cfg db).tables itemId subType day : Int)
      else volumeOn db itemId subType day := by
  have hsame : volumeOn (resolveAndRecompute num clock cfg (afterJobs num clock cfg db p.jobs) p.now)
      itemId subType day = volumeOn db itemId subType day := by
    rw [volumeOn, volumeOn, tick_itemStatsDaily]
  rw [tradesOn_period hlawful hstamped hspelled hkept]
  change volumeOn (rollupDaily num clock _ p.now) itemId subType day = _
  rw [volumeOn_rollup, rollup_count hlawful (hstamped.tick hspelled) hspelled.start, hsame]
  by_cases hcovered : dateNaive p.now - 2 ≤ day
  · have hthis : p.Covers day := hcovered
    rw [if_pos hcovered]
    simp only [hthis, true_and]
  · have hnot : ¬ p.Covers day := hcovered
    rw [if_neg hcovered, if_neg (lt_irrefl 0), if_neg fun h => hnot h.1]

/-- What a run of runs keeps: a volume is of a day that has trades. -/
structure Rolled (clock : Clock) (valid : Int → Prop) (day : Int) (db : Database F) : Prop where
  stamped : Stamped clock valid db.tables
  counted : ∀ itemId subType, volumeOn db itemId subType day ≠ none →
    0 < tradesOn clock db.tables itemId subType day

theorem Rolled.period {db : Database F} {p : Period} (h : Rolled clock valid day db)
    (hlawful : clock.Lawful valid) (hspelled : p.Spelled valid)
    (hkept : p.now - days vanishedRetentionDays ≤ day * days 1) :
    Rolled clock valid day (p.apply num clock cfg db) where
  stamped := h.stamped.period hspelled
  counted := by
    intro itemId subType hvolume
    rw [volumeOn_period hlawful h.stamped hspelled hkept] at hvolume
    split at hvolume
    · next hcovered => exact hcovered.2
    · exact (h.counted itemId subType hvolume).trans_le
        (tradesOn_period_le hlawful h.stamped hspelled hkept)

theorem Rolled.run {db : Database F} (h : Rolled clock valid day db) (hlawful : clock.Lawful valid)
    (periods : List Period) (hspelled : ∀ p ∈ periods, p.Spelled valid) (hkept : Retained periods day) :
    Rolled clock valid day (afterPeriods num clock cfg db periods) := by
  induction periods generalizing db with
  | nil => exact h
  | cons p periods ih =>
      have hnext := @Rolled.period F num clock cfg valid day db p h hlawful
        (hspelled p List.mem_cons_self) (hkept p List.mem_cons_self)
      exact ih hnext (fun q hq => hspelled q (List.mem_cons_of_mem _ hq))
        fun q hq => hkept q (List.mem_cons_of_mem _ hq)

/-- Runs that do not cover the day leave its volume. -/
theorem volumeOn_uncovered {db : Database F} (h : Rolled clock valid day db) (hlawful : clock.Lawful valid)
    (periods : List Period) (hspelled : ∀ p ∈ periods, p.Spelled valid) (hkept : Retained periods day)
    (hnot : ∀ p ∈ periods, ¬ p.Covers day) :
    volumeOn (afterPeriods num clock cfg db periods) itemId subType day = volumeOn db itemId subType day := by
  induction periods generalizing db with
  | nil => rfl
  | cons p periods ih =>
      have hp := hspelled p List.mem_cons_self
      have hday := hkept p List.mem_cons_self
      have hsame : volumeOn (p.apply num clock cfg db) itemId subType day = volumeOn db itemId subType day := by
        rw [volumeOn_period hlawful h.stamped hp hday, if_neg fun hc => hnot p List.mem_cons_self hc.1]
      rw [afterPeriods, List.foldl_cons, ← afterPeriods, ← hsame]
      exact ih (h.period hlawful hp hday) (fun q hq => hspelled q (List.mem_cons_of_mem _ hq))
        (fun q hq => hkept q (List.mem_cons_of_mem _ hq)) fun q hq => hnot q (List.mem_cons_of_mem _ hq)

end Run

/-- In every history the volume of a retained day is the number of its trades at the last hourly run that
covers the day; a day without trades then, or that no run has covered, has no row. -/
theorem rollups_count_last_run {F : Type} (num : Floats F) (clock : Clock) (cfg : StatsConfig)
    (valid : Int → Prop) (db : Database F) (periods : List Period) (itemId subType : String) (day : Int)
    (hlawful : clock.Lawful valid) (hblank : Blank db.tables) (hempty : db.itemStatsDaily = .empty)
    (hspelled : ∀ p ∈ periods, p.Spelled valid) (hkept : Retained periods day) :
    (∀ pre p post, periods = pre ++ p :: post → p.Covers day → (∀ q ∈ post, ¬ q.Covers day) →
      volumeOn (afterPeriods num clock cfg db periods) itemId subType day =
        if 0 < tradesOn clock (afterPeriods num clock cfg db (pre ++ [p])).tables itemId subType day then
          some (tradesOn clock (afterPeriods num clock cfg db (pre ++ [p])).tables itemId subType day : Int)
        else none) ∧
    ((∀ p ∈ periods, ¬ p.Covers day) →
      volumeOn (afterPeriods num clock cfg db periods) itemId subType day = none) := by
  have hnone : volumeOn db itemId subType day = none := by
    rw [volumeOn, hempty]
    rfl
  have hstart : Rolled clock valid day db := by
    refine ⟨fun row hrow => ?_, fun itemId subType hvolume => ?_⟩
    · rw [hblank.vanished] at hrow
      exact absurd hrow List.not_mem_nil
    · rw [volumeOn, hempty] at hvolume
      exact absurd rfl hvolume
  refine ⟨?_, fun hnot => (volumeOn_uncovered hstart hlawful periods hspelled hkept hnot).trans hnone⟩
  intro pre p post hperiods hcovered hlast
  subst hperiods
  have hpre : Rolled clock valid day (afterPeriods num clock cfg db pre) :=
    hstart.run hlawful pre (fun q hq => hspelled q (List.mem_append_left _ hq))
      fun q hq => hkept q (List.mem_append_left _ hq)
  have hmem : p ∈ pre ++ p :: post := List.mem_append_right _ List.mem_cons_self
  have hrun : afterPeriods num clock cfg db (pre ++ [p]) =
      p.apply num clock cfg (afterPeriods num clock cfg db pre) := by
    rw [afterPeriods, List.foldl_append]
    rfl
  have hfinal : afterPeriods num clock cfg db (pre ++ p :: post) =
      afterPeriods num clock cfg (afterPeriods num clock cfg db (pre ++ [p])) post := by
    rw [hrun, afterPeriods, List.foldl_append]
    rfl
  rw [hfinal, volumeOn_uncovered (hrun ▸ hpre.period hlawful (hspelled p hmem) (hkept p hmem)) hlawful post
    (fun q hq => hspelled q (List.mem_append_right _ (List.mem_cons_of_mem _ hq)))
    (fun q hq => hkept q (List.mem_append_right _ (List.mem_cons_of_mem _ hq))) hlast, hrun,
    volumeOn_period hlawful hpre.stamped (hspelled p hmem) (hkept p hmem)]
  by_cases htrades : 0 < tradesOn clock (p.apply num clock cfg (afterPeriods num clock cfg db pre)).tables
      itemId subType day
  · rw [if_pos ⟨hcovered, htrades⟩, if_pos htrades]
  · rw [if_neg fun h => htrades h.2, if_neg htrades]
    -- no trades now, so none before, and no volume either
    by_contra hvolume
    exact htrades ((hpre.counted itemId subType hvolume).trans_le
      (tradesOn_period_le hlawful hpre.stamped (hspelled p hmem) (hkept p hmem)))

/-! ### A vanish that is resolved after a stop -/

def stopClock : Clock := .ofSeconds
  [(-7761600, "1969-10-03T04:00:00Z"), (-7344000, "1969-10-08T00:00:00Z"), (-2577600, "1969-12-02T04:00:00Z"),
    (-2160000, "1969-12-07T00:00:00Z"), (-590400, "1969-12-25T04:00:00Z"), (-172800, "1969-12-30T00:00:00Z"),
    (3000, "1970-01-01T00:50:00Z"), (3600, "1970-01-01T01:00:00Z"), (3900, "1970-01-01T01:05:00Z"),
    (4800, "1970-01-01T01:20:00Z"), (7200, "1970-01-01T02:00:00Z"), (11100, "1970-01-01T03:05:00Z"),
    (14400, "1970-01-01T04:00:00Z"), (259200, "1970-01-04T00:00:00Z"), (424800, "1970-01-05T22:00:00Z"),
    (432000, "1970-01-06T00:00:00Z")]

/-- The order vanishes, and the server is stopped before its window closes. The first run after it, five
days later, makes a trade of the vanish and does not count it. -/
theorem trade_after_stop_not_counted :
    ¬ ∀ periods, Complete ratFloats stopClock {} emptyDatabase periods := by
  intro h
  have hvolume := h [⟨[.event (sweepAt 60 ["s1"]), .event (sweepAt 65 [])], days 5⟩] "item1" "rank=0" 0
    (by unfold Retained; decide) (by decide +kernel)
  exact absurd hvolume (by decide +kernel)

/-- The instants that the sample spells. -/
def Stopped (t : Int) : Prop :=
  t ∈ [minutes 240 - days 90, days 5 - days 90, -days 2, minutes 60, minutes 65, days 3]

theorem stopClock_lawful : stopClock.Lawful Stopped where
  reads := by
    unfold Stopped Clock.Reads
    decide +kernel
  order := by
    have h : ∀ t, Stopped t → ∀ t', Stopped t' →
        (stopClock.ts t ≤ stopClock.ts t' ↔ wholeSeconds t ≤ wholeSeconds t') := by
      unfold Stopped
      decide +kernel
    exact fun t t' ht ht' => h t ht t' ht'

/-- The same with a run before the stop. -/
theorem rollups_count_last_run_before_stop :
    volumeOn (afterPeriods ratFloats stopClock {} emptyDatabase
      [⟨[.event (sweepAt 60 ["s1"]), .event (sweepAt 65 [])], minutes 240⟩, ⟨[], days 5⟩]) "item1" "rank=0" 0 =
        some 1 := by
  have hspelled : ∀ p ∈ ([⟨[.event (sweepAt 60 ["s1"]), .event (sweepAt 65 [])], minutes 240⟩,
      ⟨[], days 5⟩] : List Period), p.Spelled Stopped := by
    intro p hp
    rcases List.mem_cons.mp hp with rfl | hp
    · exact ⟨by unfold Stopped; decide +kernel, by unfold Stopped; decide +kernel,
        by unfold Stopped; decide +kernel⟩
    · rw [List.mem_singleton.mp hp]
      exact ⟨by unfold Stopped; decide +kernel, by unfold Stopped; decide +kernel,
        by unfold Stopped; decide +kernel⟩
  refine ((rollups_count_last_run ratFloats stopClock {} Stopped emptyDatabase _ "item1" "rank=0" 0
    stopClock_lawful ⟨rfl, rfl⟩ rfl hspelled (by unfold Retained; decide)).1 [] _ _ rfl (by decide)
    (by decide)).trans ?_
  decide +kernel

end Quantframe.Collector
