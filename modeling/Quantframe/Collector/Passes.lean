import Quantframe.Collector.Refresh

/-!
# Passes of the daily refresh

What the loop owes the reader is that a pass reaches every stale item once; what it owes the market is that an
answered item is left alone until the next cutoff.
-/

namespace Quantframe.Collector.Refresh

open Lib
open scoped List
open Statistics (Reader)
open Trades (Error)
open Trends (Closed)

variable {Body F : Type} {clock : Clock} {valid : Int → Prop} {reader : Reader Body F} {db : Tables F}

/-! ### A pass -/

/-- Nothing that was not due at the first of two instants is due at the second. -/
def Quiet (clock : Clock) (db : Tables F) (first last : Int) : Prop :=
  ∀ row ∈ db.joined, Due clock last row → Due clock first row

/-- Calls between two instants under one cutoff, each answered and recorded, with no failure that is due for its
retry before the end. -/
structure Pass (clock : Clock) (valid : Int → Prop) (reader : Reader Body F) (stale : List Item) (first last : Int)
    (calls : List (Call Body)) : Prop where
  le : first ≤ last
  sameCutoff : cutoff last = cutoff first
  spelledFirst : Spelled valid first
  spelledLast : Spelled valid last
  within : ∀ c ∈ calls, first ≤ c.now ∧ c.now ≤ last ∧ Spelled valid c.now
  recorded : ∀ c ∈ calls, c.recorded = true
  answered : ∀ c ∈ calls, ∀ item ∈ stale, ∃ outcome, c.outcome reader item = some outcome ∧
    (outcome = "failed" → last - hours failedRetry ≤ c.now)

namespace Pass

variable {stale : List Item} {first last : Int} {c : Call Body} {calls : List (Call Body)}

theorem tail (h : Pass clock valid reader stale first last (c :: calls)) :
    Pass clock valid reader stale first last calls where
  le := h.le
  sameCutoff := h.sameCutoff
  spelledFirst := h.spelledFirst
  spelledLast := h.spelledLast
  within c hc := h.within c (List.mem_cons_of_mem _ hc)
  recorded c hc := h.recorded c (List.mem_cons_of_mem _ hc)
  answered c hc := h.answered c (List.mem_cons_of_mem _ hc)

/-- What is stale is the same at every instant of the pass. -/
theorem staleItems_eq (hclock : clock.Lawful valid) (h : Pass clock valid reader stale first last calls)
    (hquiet : Quiet clock db first last) {now : Int} (hfirst : first ≤ now) (hlast : now ≤ last)
    (hnow : Spelled valid now) : staleItems clock db now = staleItems clock db first := by
  have hdue : ∀ row ∈ db.joined, Due clock now row ↔ Due clock first row := by
    intro row hrow
    constructor
    · intro hdue
      exact hquiet row hrow (due_mono hclock hnow h.spelledLast hlast hdue)
    · exact due_mono hclock h.spelledFirst hnow hfirst
  rw [staleItems, staleItems, staleRows, staleRows]
  congr 2
  apply List.filter_congr
  intro row hrow
  simp only [hdue row hrow]

/-- A call of a pass takes its item off the stale ones, and returns how many there were. -/
theorem step (hclock : clock.Lawful valid) (h : Pass clock valid reader stale first last (c :: calls))
    (hquiet : Quiet clock db first last) (hstale : staleItems clock db first ⊆ stale) :
    (staleItems clock db c.now = [] ∧ refreshOnce clock reader db c = (.ok none, db)) ∨
    ∃ item, takeNext c.prefers (staleItems clock db c.now) = some item ∧
      (refreshOnce clock reader db c).1 = .ok (some (staleItems clock db c.now).length) ∧
      staleItems clock (refreshOnce clock reader db c).2 first = (staleItems clock db first).erase item ∧
      Quiet clock (refreshOnce clock reader db c).2 first last := by
  obtain ⟨hfirst, hlast, hnow⟩ := h.within c List.mem_cons_self
  have heq := h.staleItems_eq hclock hquiet hfirst hlast hnow
  have hcourse := @refreshOnce_course Body F clock reader db c
  generalize refreshOnce clock reader db c = result at hcourse ⊢
  cases hcourse with
  | idle hnone => exact .inl ⟨takeNext_eq_none.mp hnone, rfl⟩
  | @blocked item hitem hblocked =>
      have hmem : item ∈ staleItems clock db first := heq ▸ mem_of_takeNext hitem
      obtain ⟨outcome, houtcome, -⟩ := h.answered c List.mem_cons_self item (hstale hmem)
      rw [hblocked] at houtcome
      cases houtcome
  | @unrecorded item outcome closed hitem houtcome hrecorded =>
      rw [h.recorded c List.mem_cons_self] at hrecorded
      cases hrecorded
  | @recorded item outcome closed hitem houtcome hrecorded =>
      have hmem : item ∈ staleItems clock db first := heq ▸ mem_of_takeNext hitem
      obtain ⟨outcome', houtcome', hretry⟩ := h.answered c List.mem_cons_self item (hstale hmem)
      cases houtcome.symm.trans houtcome'
      have hcutoff : cutoff last ≤ c.now := h.sameCutoff ▸ (cutoff_le first).trans hfirst
      have hdoneLast : ∀ s, ¬ Due clock last (s, some ⟨item.1, clock.ts c.now, outcome⟩) := fun s =>
        not_due_of_fetched hclock hnow.atNow h.spelledLast hcutoff hretry
      have hdoneFirst : ∀ s, ¬ Due clock first (s, some ⟨item.1, clock.ts c.now, outcome⟩) := fun s hdue =>
        hdoneLast s (due_mono hclock h.spelledFirst h.spelledLast h.le hdue)
      refine .inr ⟨item, hitem, rfl, ?_, ?_⟩
      · have hstored : item ∈ staleItems clock { db with closedStatsDaily := closed } first := hmem
        exact staleItems_setFetchState hstored hdoneFirst
      · intro row hrow hdue
        rw [joined_setFetchState, List.mem_map] at hrow
        obtain ⟨old, hold, rfl⟩ := hrow
        split at hdue
        · exact absurd hdue (hdoneLast old.1)
        · next hother =>
            rw [if_neg hother]
            exact hquiet old hold hdue

/-- The calls of a pass serve the stale items. -/
theorem serves (hclock : clock.Lawful valid) (h : Pass clock valid reader stale first last calls)
    (hquiet : Quiet clock db first last) (hstale : staleItems clock db first ⊆ stale) :
    Serves (refreshOnce clock reader) .ok (fun db c => staleItems clock db c.now) Call.prefers db
      (staleItems clock db first) calls (staleItems clock (afterCalls clock reader db calls) last) := by
  induction calls generalizing db with
  | nil =>
      rw [afterCalls, List.foldl_nil, h.staleItems_eq hclock hquiet h.le (le_refl _) h.spelledLast]
      exact .done db _
  | cons c calls ih =>
      obtain ⟨hfirst, hlast, hnow⟩ := h.within c List.mem_cons_self
      have heq := h.staleItems_eq hclock hquiet hfirst hlast hnow
      rcases h.step hclock hquiet hstale with ⟨hnil, hcall⟩ | ⟨item, htaken, hreturned, hrest, hquiet'⟩
      · have hrun := ih h.tail hquiet hstale
        rw [← heq, hnil] at hrun ⊢
        rw [afterCalls, List.foldl_cons, hcall]
        exact .idle hnil hcall hrun
      · have hsub : staleItems clock (refreshOnce clock reader db c).2 first ⊆ stale := by
          rw [hrest]
          exact fun x hx => hstale (List.mem_of_mem_erase hx)
        have hrun := ih h.tail hquiet' hsub
        rw [hrest, ← heq] at hrun
        rw [← heq]
        exact .take htaken hreturned hrun

end Pass

/-- The columns hold outcomes that the code writes. -/
def Known (db : Tables F) : Prop := ∀ f ∈ db.closedFetchState.rows, f.outcome ∈ ["ok", "missing", "failed"]

def morning (seconds : Int) : Int := days 10 + hours 9 + seconds * 1000000000

def morningClock : Clock := .ofSeconds
  [(892800, "1970-01-11T08:00:00Z"), (892810, "1970-01-11T08:00:10Z"), (894600, "1970-01-11T08:30:00Z"),
    (896400, "1970-01-11T09:00:00Z"), (896410, "1970-01-11T09:00:10Z"), (900010, "1970-01-11T10:00:10Z")]

def MorningSpelled (t : Int) : Prop :=
  t ∈ [morning (-3600), morning (-3590), morning (-1800), morning 0, morning 10, morning 3610]

theorem morningClock_lawful : morningClock.Lawful MorningSpelled where
  reads := by
    unfold MorningSpelled Clock.Reads
    decide +kernel
  order := by
    have h : ∀ t, MorningSpelled t → ∀ t', MorningSpelled t' →
        (morningClock.ts t ≤ morningClock.ts t' ↔ wholeSeconds t ≤ wholeSeconds t') := by
      unfold MorningSpelled
      decide +kernel
    exact fun t t' ht ht' => h t ht t' ht'

/-- Two items, neither of them fetched before. -/
def morningTables : Tables Nat where
  sweepState := ⟨[⟨"item1", "slug1", true, none, none, none, 60, 0⟩, ⟨"item2", "slug2", true, none, none, none, 60, 0⟩],
    by decide⟩
  closedStatsDaily := .empty
  closedFetchState := .empty

/-- What may happen to the tables between two calls. -/
inductive Event (Body F : Type) where
  | call (c : Call Body)
  /-- The backfill stored the item. -/
  | backfilled (itemId : String) (now : Int)
  /-- A sweep, or a sync with the item list. -/
  | sweepState (t : Table SweepState.itemId)
  /-- Days that the backfill or the retention wrote. -/
  | closedDays (t : Closed F)

namespace Event

def apply (clock : Clock) (reader : Reader Body F) (db : Tables F) : Event Body F → Tables F
  | .call c => (refreshOnce clock reader db c).2
  | .backfilled itemId now => db.setFetchState itemId (clock.ts now) "ok"
  | .sweepState t => { db with sweepState := t }
  | .closedDays t => { db with closedStatsDaily := t }

/-- When a fetch state is written. -/
def now? : Event Body F → Option Int
  | .call c => some c.now
  | .backfilled _ now => some now
  | .sweepState _ => none
  | .closedDays _ => none

end Event

def afterEvents (clock : Clock) (reader : Reader Body F) (db : Tables F) (events : List (Event Body F)) : Tables F :=
  events.foldl (Event.apply clock reader) db

/-- A cutoff has passed since the fetch, or an hour if it failed. -/
def Elapsed (at_ : Int) (outcome : String) (now : Int) : Prop :=
  at_ < cutoff now ∨ outcome = "failed" ∧ at_ + hours failedRetry < now

theorem Elapsed.mono {at_ : Int} {outcome : String} {now later : Int} (h : Elapsed at_ outcome now)
    (hle : now ≤ later) : Elapsed at_ outcome later := by
  rcases h with h | ⟨hfailed, h⟩
  · exact .inl (h.trans_le (cutoff_mono hle))
  · exact .inr ⟨hfailed, h.trans_le hle⟩

/-- The item was fetched at the instant or later, and a later failure came after a time in which the first
answer had gone stale. -/
def Since (clock : Clock) (valid : Int → Prop) (at_ : Int) (outcome itemId : String) (last : Int) (db : Tables F) :
    Prop :=
  ∃ now f, valid now ∧ at_ ≤ now ∧ now ≤ last ∧ db.closedFetchState.lookup itemId = some f ∧
    f.fetchedAt = clock.ts now ∧ (f.outcome = "failed" → Elapsed at_ outcome now ∨ outcome = "failed" ∧ now = at_)

theorem due_of_fetched {c : Call Body} {item : Item} (h : fetched clock db c = some item) :
    ∃ s : SweepState, Due clock c.now (s, db.closedFetchState.lookup item.1) := by
  obtain ⟨row, hrow, rfl⟩ := List.mem_map.mp (mem_of_takeNext h)
  obtain ⟨hjoined, hdue⟩ := List.mem_filter.mp ((mem_byRank _).mp hrow)
  obtain ⟨s, -, rfl⟩ := List.mem_map.mp hjoined
  exact ⟨s, of_decide_eq_true hdue⟩

/-- The item is fetched again only when its answer has gone stale. -/
theorem Since.elapsed (hclock : clock.Lawful valid) {at_ : Int} {c' : Call Body} {outcome : String} {last : Int}
    {item : Item} (h : Since clock valid at_ outcome item.1 last db) (hagain : fetched clock db c' = some item)
    (hnow : Spelled valid c'.now) : Elapsed at_ outcome c'.now := by
  obtain ⟨now, ⟨itemId, fetchedAt, kept⟩, hvalid, hle, -, hlookup, hfetchedAt, hfailed⟩ := h
  obtain ⟨s, hdue⟩ := due_of_fetched hagain
  dsimp only at hfetchedAt hfailed
  rw [hlookup, hfetchedAt] at hdue
  rcases before_of_due hclock hvalid hnow hdue with hcutoff | ⟨hkept, hretry⟩
  · exact .inl (hle.trans_lt hcutoff)
  · have hlater : now ≤ c'.now := by
      rw [hours] at hretry
      simp only [failedRetry] at hretry
      omega
    rcases hfailed hkept with helapsed | ⟨hout, rfl⟩
    · exact helapsed.mono hlater
    · exact .inr ⟨hout, hretry⟩

theorem Since.setFetchState {at_ : Int} {outcome itemId : String} {last : Int}
    (h : Since clock valid at_ outcome itemId last db) {other written : String} {now : Int} (hvalid : valid now)
    (hle : at_ ≤ now) (hlast : now ≤ last) (hfailed : other = itemId → written = "failed" → Elapsed at_ outcome now) :
    Since clock valid at_ outcome itemId last (db.setFetchState other (clock.ts now) written) := by
  by_cases hsame : itemId = other
  · subst hsame
    refine ⟨now, ⟨itemId, clock.ts now, written⟩, hvalid, hle, hlast, ?_, rfl, fun hw => .inl (hfailed rfl hw)⟩
    rw [Tables.setFetchState, Table.lookup_insertOrReplace, if_pos rfl]
  · obtain ⟨now', f, hvalid', hle', hlast', hlookup, hrest⟩ := h
    refine ⟨now', f, hvalid', hle', hlast', ?_, hrest⟩
    rw [Tables.setFetchState, Table.lookup_insertOrReplace, if_neg hsame]
    exact hlookup

/-- Whatever else is written meanwhile, the item's fetch state is that of the fetch or a later one. -/
theorem Since.apply (hclock : clock.Lawful valid) {at_ : Int} {outcome itemId : String} {last : Int}
    (h : Since clock valid at_ outcome itemId last db) {e : Event Body F}
    (htime : ∀ now, e.now? = some now → at_ ≤ now ∧ now ≤ last ∧ Spelled valid now) :
    Since clock valid at_ outcome itemId last (e.apply clock reader db) := by
  cases e with
  | sweepState _ | closedDays _ => exact h
  | backfilled other now =>
      obtain ⟨hle, hlast, hnow⟩ := htime now rfl
      exact h.setFetchState hnow.atNow hle hlast fun _ hok => absurd hok (by decide)
  | call c' =>
      obtain ⟨hle, hlast, hnow⟩ := htime c'.now rfl
      have hcourse := @refreshOnce_course Body F clock reader db c'
      rw [Event.apply]
      generalize refreshOnce clock reader db c' = result at hcourse ⊢
      cases hcourse with
      | idle _ | blocked _ _ | unrecorded _ _ _ _ => exact h
      | @recorded item written closed hitem _ _ =>
          have hdays : Since clock valid at_ outcome itemId last { db with closedStatsDaily := closed } := h
          apply hdays.setFetchState hnow.atNow hle hlast
          rintro rfl -
          exact h.elapsed hclock hitem hnow

end Quantframe.Collector.Refresh
