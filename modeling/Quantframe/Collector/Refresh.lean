import Mathlib.Data.Prod.Lex
import Mathlib.Data.String.Basic
import Mathlib.Order.BooleanAlgebra.Basic
import Quantframe.Collector.Statistics
import Quantframe.Lib.Worklist

/-!
# The daily refresh of the closed statistics

One stale item is fetched at a time, a hot one before the others. What is due is told from the texts of two
columns, so the order of the texts is taken to be that of the seconds they spell.
-/

namespace Quantframe.Collector.Refresh

open Lib
open scoped List
open Statistics (Reader parseStatistics)
open Trades (Error)
open Trends (Closed upsertDays)

variable {Body F : Type}

/-- Hours. -/
def failedRetry : Int := 1

structure Tables (F : Type) where
  sweepState : Table SweepState.itemId
  closedStatsDaily : Closed F
  closedFetchState : Table FetchState.itemId

def Tables.setFetchState (db : Tables F) (itemId fetchedAt outcome : String) : Tables F :=
  { db with closedFetchState := db.closedFetchState.insertOrReplace ⟨itemId, fetchedAt, outcome⟩ }

/-- A row of `sweep_state s LEFT JOIN closed_fetch_state f`. -/
abbrev Joined := SweepState × Option FetchState

/-- The active items with their last fetch. -/
def Tables.joined (db : Tables F) : List Joined :=
  (db.sweepState.rows.filter SweepState.active).map fun s => (s, db.closedFetchState.lookup s.itemId)

/-- An id and its slug. -/
abbrev Item := String × String

def Joined.item (row : Joined) : Item := (row.1.itemId, row.1.slug)

/-- `f.fetched_at IS NOT NULL, f.fetched_at, s.item_id`. -/
def Joined.rank (row : Joined) : Bool ×ₗ String ×ₗ String :=
  toLex (row.2.isSome, toLex ((row.2.map FetchState.fetchedAt).getD "", row.1.itemId))

section Calls

variable (clock : Clock)

/-- The item was not fetched since the cutoff, or failed more than an hour ago. -/
def Due (now : Int) (row : Joined) : Prop :=
  match row.2 with
  | none => True
  | some f =>
      f.fetchedAt < clock.ts (cutoff now) ∨
        f.outcome = "failed" ∧ f.fetchedAt < clock.ts (now - hours failedRetry)

instance (now : Int) (row : Joined) : Decidable (Due clock now row) :=
  match row with
  | (_, none) => isTrue trivial
  | (_, some _) => inferInstanceAs (Decidable (_ ∨ _))

def staleRows (db : Tables F) (now : Int) : List Joined :=
  byRank Joined.rank (db.joined.filter fun row => decide (Due clock now row))

/-- Active items that need a fetch: never fetched first, then oldest fetch, then item id. -/
def staleItems (db : Tables F) (now : Int) : List Item := (staleRows clock db now).map Joined.item

def pick (stale : List Item) (hot : List String) : Option Item := takeNext (fun item => hot.contains item.1) stale

/-- One call, with what the market answers to each attempt at a slug and whether the transaction of the days
and the statement of the fetch state succeed. -/
structure Call (Body : Type) where
  hot : List String
  now : Int
  source : String → Nat → Except FetchError Body
  upserted : Bool
  recorded : Bool

def Call.prefers (c : Call Body) (item : Item) : Bool := c.hot.contains item.1

def Call.answer (c : Call Body) (slug : String) : Except FetchError Body :=
  Statistics.fetchWithRetries (c.source slug)

variable (reader : Reader Body F)

/-- The outcome column and the days after an answer; none after a block. -/
def outcomeOf (closed : Closed F) (itemId : String) (upserted : Bool) :
    Except FetchError Body → Option (String × Closed F)
  | .ok body =>
      match parseStatistics reader body with
      | .ok days => if upserted then some ("ok", (upsertDays closed itemId days).2) else some ("failed", closed)
      | .error _ => some ("failed", closed)
  | .error .notFound => some ("missing", closed)
  | .error .blocked => none
  | .error .rateLimited => none
  | .error _ => some ("failed", closed)

/-- Fetches one stale item; returns the stale count before the fetch. A failing first `SELECT`, which returns its error
before anything is fetched or written, is left out. -/
def refreshOnce (db : Tables F) (c : Call Body) : Except Error (Option Nat) × Tables F :=
  let stale := staleItems clock db c.now
  match pick stale c.hot with
  | none => (.ok none, db)
  | some (itemId, slug) =>
      match outcomeOf reader db.closedStatsDaily itemId c.upserted (c.answer slug) with
      | none => (.ok (some stale.length), db)
      | some (outcome, closed) =>
          let db := { db with closedStatsDaily := closed }
          if c.recorded then (.ok (some stale.length), db.setFetchState itemId (clock.ts c.now) outcome)
          else (.error ⟨"ClosedStats:State", ""⟩, db)

/-- The item a call fetches. -/
def fetched (db : Tables F) (c : Call Body) : Option Item := pick (staleItems clock db c.now) c.hot

end Calls

/-- How many active items have this outcome. -/
def countOutcome (db : Tables F) (outcome : String) : Nat :=
  db.joined.countP fun row => decide (row.2.map FetchState.outcome = some outcome)

section Runs

variable (clock : Clock) (reader : Reader Body F)

/-- The calls that fetch an item, each with the item. -/
def fetches (db : Tables F) (calls : List (Call Body)) : List (Call Body × Item) :=
  picks (refreshOnce clock reader) (fun db c => staleItems clock db c.now) Call.prefers db calls

def afterCalls (db : Tables F) (calls : List (Call Body)) : Tables F :=
  calls.foldl (fun db c => (refreshOnce clock reader db c).2) db

/-- The outcome column that a fetch of the item writes; none after a block. -/
def Call.outcome (c : Call Body) (item : Item) : Option String :=
  (outcomeOf reader (Table.empty : Closed F) item.1 c.upserted (c.answer item.2)).map Prod.fst

end Runs

/-! ### The cutoff -/

/-- The cutoff of the day, or that of the day before. -/
theorem cutoff_cases (t : Int) :
    let today := t / 86400000000000 * 86400000000000 + 30600000000000
    today ≤ t ∧ cutoff t = today ∨ t < today ∧ cutoff t = today - 86400000000000 := by
  have htoday : days (dateNaive t) + hours 8 + minutes 30 = t / 86400000000000 * 86400000000000 + 30600000000000 := by
    simp only [dateNaive, days, hours, minutes, one_mul]
    omega
  simp only [cutoff, htoday]
  split
  · next h => exact .inl ⟨h, rfl⟩
  · next h => exact .inr ⟨by omega, by rw [days, one_mul]⟩

theorem cutoff_le (t : Int) : cutoff t ≤ t := by
  rcases cutoff_cases t with h | h
  · omega
  · omega

theorem cutoff_mono {t t' : Int} (h : t ≤ t') : cutoff t ≤ cutoff t' := by
  rcases cutoff_cases t with ht | ht
  · rcases cutoff_cases t' with ht' | ht'
    · omega
    · omega
  · rcases cutoff_cases t' with ht' | ht'
    · omega
    · omega

/-- A stamp before a cutoff is of an instant before it. -/
theorem lt_cutoff_of_wholeSeconds {t now : Int} (h : wholeSeconds t < wholeSeconds (cutoff now)) : t < cutoff now := by
  rw [wholeSeconds, wholeSeconds] at h
  rcases cutoff_cases now with hnow | hnow
  · omega
  · omega

theorem lt_of_wholeSeconds_lt {t t' : Int} (h : wholeSeconds t < wholeSeconds t') : t < t' := by
  rw [wholeSeconds, wholeSeconds] at h
  omega

/-! ### What is due -/

variable {clock : Clock} {valid : Int → Prop} {db : Tables F}

/-- The instants a call compares are written as the clock spells them. -/
structure Spelled (valid : Int → Prop) (now : Int) : Prop where
  atNow : valid now
  atCutoff : valid (cutoff now)
  atRetry : valid (now - hours failedRetry)

/-- What is due stays due until it is fetched. -/
theorem due_mono (hclock : clock.Lawful valid) {now later : Int} (hnow : Spelled valid now)
    (hlater : Spelled valid later) (hle : now ≤ later) {row : Joined} (h : Due clock now row) :
    Due clock later row := by
  obtain ⟨s, f⟩ := row
  cases f with
  | none => trivial
  | some f =>
      have hcutoff := (hclock.order _ _ hnow.atCutoff hlater.atCutoff).mpr (wholeSeconds_mono (cutoff_mono hle))
      have hretry := (hclock.order _ _ hnow.atRetry hlater.atRetry).mpr (wholeSeconds_mono (by omega))
      rcases h with h | ⟨hfailed, h⟩
      · exact .inl (h.trans_le hcutoff)
      · exact .inr ⟨hfailed, h.trans_le hretry⟩

/-- A fetch since the cutoff is not due, unless it failed more than an hour ago. -/
theorem not_due_of_fetched (hclock : clock.Lawful valid) {at_ now : Int} (hat : valid at_) (hnow : Spelled valid now)
    (hcutoff : cutoff now ≤ at_) {outcome : String} (hretry : outcome = "failed" → now - hours failedRetry ≤ at_)
    {s : SweepState} {itemId : String} : ¬ Due clock now (s, some ⟨itemId, clock.ts at_, outcome⟩) := by
  rintro (h | ⟨hfailed, h⟩)
  · exact absurd ((hclock.order _ _ hnow.atCutoff hat).mpr (wholeSeconds_mono hcutoff)) (not_le_of_gt h)
  · exact absurd ((hclock.order _ _ hnow.atRetry hat).mpr (wholeSeconds_mono (hretry hfailed))) (not_le_of_gt h)

/-- A due fetch was before the cutoff, or it failed more than an hour before. -/
theorem before_of_due (hclock : clock.Lawful valid) {at_ now : Int} (hat : valid at_) (hnow : Spelled valid now)
    {outcome : String} {s : SweepState} {itemId : String}
    (h : Due clock now (s, some ⟨itemId, clock.ts at_, outcome⟩)) :
    at_ < cutoff now ∨ outcome = "failed" ∧ at_ + hours failedRetry < now := by
  rcases h with h | ⟨hfailed, h⟩
  · exact .inl (lt_cutoff_of_wholeSeconds ((hclock.lt_iff hat hnow.atCutoff).mp h))
  · have hlt := lt_of_wholeSeconds_lt ((hclock.lt_iff hat hnow.atRetry).mp h)
    exact .inr ⟨hfailed, by omega⟩

/-! ### The stale items -/

theorem nodup_joined (db : Tables F) : (db.joined.map fun row => row.1.itemId).Nodup := by
  have hsub : (db.sweepState.rows.filter SweepState.active).map SweepState.itemId <+
      db.sweepState.rows.map SweepState.itemId := List.filter_sublist.map _
  rw [Tables.joined, List.map_map]
  exact hsub.nodup db.sweepState.primaryKey

theorem separates_joined (db : Tables F) : Ranking.Separates Joined.rank db.joined := by
  intro a ha b hb hrank
  apply List.inj_on_of_nodup_map (nodup_joined db) ha hb
  exact congrArg (fun rank => (ofLex (ofLex rank).2).2) hrank

/-- Rows that become others are lost to a filter that the others do not pass. -/
theorem filter_replace {α : Type*} {q k : α → Bool} {g : α → α} {l : List α}
    (h : ∀ a ∈ l, k a = true → q (g a) = false) :
    (l.map fun a => if k a = true then g a else a).filter q = (l.filter q).filter fun a => !k a := by
  induction l with
  | nil => rfl
  | cons a l ih =>
      have hrest := ih fun b hb => h b (List.mem_cons_of_mem _ hb)
      cases hk : k a with
      | true =>
          have hq := h a List.mem_cons_self hk
          cases ha : q a <;> simp [hk, hq, ha, hrest]
      | false => cases ha : q a <;> simp [hk, ha, hrest]

theorem joined_setFetchState (db : Tables F) (itemId fetchedAt outcome : String) :
    (db.setFetchState itemId fetchedAt outcome).joined =
      db.joined.map fun row => if decide (row.1.itemId = itemId) = true then (row.1, some ⟨itemId, fetchedAt, outcome⟩)
        else row := by
  simp only [Tables.joined, Tables.setFetchState, List.map_map, Table.lookup_insertOrReplace, Function.comp_def,
    decide_eq_true_eq]
  apply List.map_congr_left
  intro s _
  split
  · rfl
  · rfl

/-- The stale items are those there were, without the one that was fetched. -/
theorem staleItems_setFetchState {now : Int} {item : Item} {fetchedAt outcome : String}
    (hmem : item ∈ staleItems clock db now)
    (hdone : ∀ s, ¬ Due clock now (s, some ⟨item.1, fetchedAt, outcome⟩)) :
    staleItems clock (db.setFetchState item.1 fetchedAt outcome) now = (staleItems clock db now).erase item := by
  have hrows : staleRows clock (db.setFetchState item.1 fetchedAt outcome) now =
      (staleRows clock db now).filter fun row => !decide (row.1.itemId = item.1) := by
    rw [staleRows, joined_setFetchState, filter_replace, byRank_filter, staleRows]
    · intro a ha b hb
      exact separates_joined db a (List.mem_filter.mp ha).1 b (List.mem_filter.mp hb).1
    · intro row _ _
      exact decide_eq_false (hdone row.1)
  have hnodup : ((staleItems clock db now).map Prod.fst).Nodup := by
    have hperm := ((byRank_perm Joined.rank (db.joined.filter fun row => decide (Due clock now row))).map
      fun row : Joined => row.1.itemId)
    have hids : (staleItems clock db now).map Prod.fst = (staleRows clock db now).map fun row => row.1.itemId := by
      rw [staleItems, List.map_map]
      rfl
    rw [hids]
    exact hperm.nodup_iff.mpr ((List.filter_sublist.map _).nodup (nodup_joined db))
  rw [← filter_ne_eq_erase hnodup hmem, staleItems, hrows, staleItems, List.filter_map]
  rfl

/-! ### One call -/

variable {reader : Reader Body F}

theorem outcomeOf_fst (closed closed' : Closed F) (itemId : String) (upserted : Bool)
    (answer : Except FetchError Body) :
    (outcomeOf reader closed itemId upserted answer).map Prod.fst =
      (outcomeOf reader closed' itemId upserted answer).map Prod.fst := by
  cases answer with
  | ok body =>
      simp only [outcomeOf]
      split
      · split
        · rfl
        · rfl
      · rfl
  | error e =>
      cases e with
      | notFound | rateLimited | blocked | transient _ | invalid _ => rfl

/-- What a call may do. -/
inductive Course (clock : Clock) (reader : Reader Body F) (db : Tables F) (c : Call Body) :
    Except Error (Option Nat) × Tables F → Prop
  | idle : fetched clock db c = none → Course clock reader db c (.ok none, db)
  | blocked {item : Item} : fetched clock db c = some item → c.outcome reader item = none →
      Course clock reader db c (.ok (some (staleItems clock db c.now).length), db)
  | recorded {item : Item} {outcome : String} (closed : Closed F) : fetched clock db c = some item →
      c.outcome reader item = some outcome → c.recorded = true →
      Course clock reader db c (.ok (some (staleItems clock db c.now).length),
        ({ db with closedStatsDaily := closed }).setFetchState item.1 (clock.ts c.now) outcome)
  | unrecorded {item : Item} {outcome : String} (closed : Closed F) : fetched clock db c = some item →
      c.outcome reader item = some outcome → c.recorded = false →
      Course clock reader db c (.error ⟨"ClosedStats:State", ""⟩, { db with closedStatsDaily := closed })

theorem refreshOnce_course (db : Tables F) (c : Call Body) :
    Course clock reader db c (refreshOnce clock reader db c) := by
  simp only [refreshOnce]
  split
  · next hnone => exact .idle hnone
  · next itemId slug hpick =>
      have hfst := @outcomeOf_fst Body F reader db.closedStatsDaily Table.empty itemId c.upserted (c.answer slug)
      split
      · next hanswer =>
          rw [hanswer] at hfst
          exact .blocked hpick hfst.symm
      · next outcome closed hanswer =>
          rw [hanswer] at hfst
          split
          · next hrecorded => exact .recorded closed hpick hfst.symm hrecorded
          · next hrecorded => exact .unrecorded closed hpick hfst.symm (by simpa using hrecorded)

end Quantframe.Collector.Refresh
