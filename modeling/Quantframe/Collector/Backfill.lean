import Quantframe.Collector.Recompute
import Quantframe.Collector.Statistics
import Quantframe.Lib.Machine

/-!
# The backfill

The one-off import of the 90-day statistics. Runs are started in the background, each with a watcher that reports
its panic, and share one status and the tables with the collector. Every await and every lock of the status is a
step boundary.
-/

namespace Quantframe.Collector.Backfill

open Lib
open Statistics (Reader parseStatistics)
open Trends (Closed ClosedDay Day upsertDays)

variable {Body F : Type}

inductive BackfillState where
  | idle
  | running
  | done
  | failed
  deriving DecidableEq, Repr

structure BackfillStatus where
  state : BackfillState
  startedAt : Option String
  finishedAt : Option String
  itemsTotal : Int
  itemsDone : Int
  daysInserted : Int
  itemsMissing : Int
  itemsFailed : Int
  lastError : Option String
  deriving DecidableEq, Repr

namespace BackfillStatus

/-- `BackfillStatus::default()`. -/
def fresh : BackfillStatus := ⟨.idle, none, none, 0, 0, 0, 0, 0, none⟩

def started (at_ : String) (itemsTotal : Nat) : BackfillStatus :=
  { fresh with state := .running, startedAt := some at_, itemsTotal }

def fail (s : BackfillStatus) (at_ message : String) : BackfillStatus :=
  { s with state := .failed, finishedAt := some at_, lastError := some message }

def finish (s : BackfillStatus) (at_ : String) : BackfillStatus :=
  { s with state := .done, finishedAt := some at_ }

end BackfillStatus

/-- `FetchError::fmt`. -/
def fmt : FetchError → String
  | .notFound => "not found"
  | .rateLimited => "rate limited"
  | .blocked => "blocked by a Cloudflare challenge"
  | .transient message => message
  | .invalid message => message

/-! ### The rows -/

def statsRow (date : String → Day) (itemId : String) (d : ClosedDay F) : DailyRow F :=
  ⟨itemId, d.subType, ⟨date d.day, d.volume, d.median, d.minPrice, d.maxPrice⟩⟩

def insertDay (date : String → Day) (itemId : String) (acc : Nat × DailyTable F) (d : ClosedDay F) :
    Nat × DailyTable F :=
  (if (acc.2.lookup (itemId, d.subType, date d.day)).isSome then acc.1 else acc.1 + 1,
    acc.2.insertOrIgnore (statsRow date itemId d))

/-- Inserts the days the collector has not produced; the rows written, and the table. -/
def insertMissing (date : String → Day) (t : DailyTable F) (itemId : String) (days : List (ClosedDay F)) :
    Nat × DailyTable F :=
  days.foldl (insertDay date itemId) (0, t)

/-! ### A run -/

/-- An id and its slug. -/
abbrev Item := String × String

/-- What a run makes of an item. -/
inductive Outcome where
  | stored (days : Nat)
  | missing
  | failed (message : String)
  deriving DecidableEq

inductive Phase (F : Type) where
  | spawned
  | empty
  /-- At the head of the loop. -/
  | next
  | fetched (itemId : String) (days : List (ClosedDay F))
  | inserted (itemId : String) (days : List (ClosedDay F)) (inserted : Nat)
  | upserted (itemId : String) (inserted : Nat)
  /-- The outcome of the item, to be counted; the rows of the insert stay in any case. -/
  | resolved (itemId : String) (outcome : Outcome) (inserted : Nat)
  | counted

/-- The item whose rows are being written, and the rows its insert added so far. -/
def Phase.pending : Phase F → Option (String × Nat)
  | .fetched itemId _ => some (itemId, 0)
  | .inserted itemId _ rows => some (itemId, rows)
  | .upserted itemId rows => some (itemId, rows)
  | _ => none

/-- The items still to be taken. -/
structure Run (F : Type) where
  items : List Item
  phase : Phase F

/-- An item that was counted, with the rows its insert added. -/
structure Counted where
  itemId : String
  outcome : Outcome
  inserted : Nat

/-- What the runs share. Of the last run to begin, `given` are its items, `counted` those counted so far, and `added`
says by how many rows its inserts made the table grow. -/
structure Shared (F : Type) where
  status : BackfillStatus
  itemStatsDaily : DailyTable F
  closedStatsDaily : Closed F
  closedFetchState : Table FetchState.itemId
  given : List Item
  counted : List Counted
  added : Nat

inductive RunLabel (Body : Type) where
  | begin (now : String)
  | empty (now : String)
  /-- What the market answers to each attempt. -/
  | fetch (source : Nat → Except FetchError Body)
  /-- A write, and the error if it fails. -/
  | insert (error : Option String)
  | upsert (error : Option String)
  | record (now : String) (error : Option String)
  | count
  | tally
  | finish (now : String)

def countOutcome (s : BackfillStatus) : Outcome → BackfillStatus
  | .stored days => { s with daysInserted := s.daysInserted + days }
  | .missing => { s with itemsMissing := s.itemsMissing + 1 }
  | .failed message => { s with itemsFailed := s.itemsFailed + 1, lastError := some message }

section Steps

variable (reader : Reader Body F)

/-- The phase after the answer for an item. -/
def afterFetch (itemId : String) : Except FetchError Body → Phase F
  | .ok body =>
      match parseStatistics reader body with
      | .ok days => .fetched itemId days
      | .error e => .resolved itemId (.failed e.message) 0
  | .error .notFound => .resolved itemId .missing 0
  | .error e => .resolved itemId (.failed (fmt e)) 0

/-- One step of a run; without a run after it where it has returned. -/
def Run.step (w : Shared F) (r : Run F) : RunLabel Body → Option (Shared F × Option (Run F))
  | .begin now =>
      match r.phase with
      | .spawned =>
          some ({ w with status := .started now r.items.length, given := r.items, counted := [], added := 0 },
            some { r with phase := if r.items.isEmpty then .empty else .next })
      | _ => none
  | .empty now =>
      match r.phase with
      | .empty => some ({ w with status := w.status.fail now "no tradable items in the cache" }, none)
      | _ => none
  | .fetch source =>
      match r.phase, r.items with
      | .next, item :: items =>
          some (w, some ⟨items, afterFetch reader item.1 (Statistics.fetchWithRetries source)⟩)
      | _, _ => none
  | .insert error =>
      match r.phase with
      | .fetched itemId days =>
          match error with
          | some message => some (w, some { r with phase := .resolved itemId (.failed message) 0 })
          | none =>
              let (inserted, table) := insertMissing reader.date w.itemStatsDaily itemId days
              some ({ w with
                itemStatsDaily := table
                added := w.added + (table.rows.length - w.itemStatsDaily.rows.length) },
                some { r with phase := .inserted itemId days inserted })
      | _ => none
  | .upsert error =>
      match r.phase with
      | .inserted itemId days inserted =>
          match error with
          | some message => some (w, some { r with phase := .resolved itemId (.failed message) inserted })
          | none => some ({ w with closedStatsDaily := (upsertDays w.closedStatsDaily itemId days).2 },
              some { r with phase := .upserted itemId inserted })
      | _ => none
  | .record now error =>
      match r.phase with
      | .upserted itemId inserted =>
          match error with
          | some message => some (w, some { r with phase := .resolved itemId (.failed message) inserted })
          | none => some ({ w with closedFetchState := w.closedFetchState.insertOrReplace ⟨itemId, now, "ok"⟩ },
              some { r with phase := .resolved itemId (.stored inserted) inserted })
      | _ => none
  | .count =>
      match r.phase with
      | .resolved itemId outcome inserted =>
          some ({ w with
            status := countOutcome w.status outcome
            counted := w.counted ++ [⟨itemId, outcome, inserted⟩] }, some { r with phase := .counted })
      | _ => none
  | .tally =>
      match r.phase with
      | .counted => some ({ w with status := { w.status with itemsDone := w.status.itemsDone + 1 } },
          some { r with phase := .next })
      | _ => none
  | .finish now =>
      match r.phase, r.items with
      | .next, [] => some ({ w with status := w.status.finish now }, none)
      | _, _ => none

/-! ### The process -/

structure State (F : Type) where
  shared : Shared F
  /-- The runs that have not written their last status. -/
  runs : List (Run F)
  /-- The runs that have, and are about to log it. -/
  returning : Nat
  /-- The errors the watchers have to report. -/
  panicked : List String

inductive Label (Body F : Type) where
  | start (items : List Item) (now : String)
  | run (i : Nat) (l : RunLabel Body)
  | panic (i : Nat) (message : String)
  | watch (i : Nat) (now : String)
  | returned
  /-- A panic while the end of the run is logged. -/
  | latePanic (message : String)
  /-- The collector rebuilds days. -/
  | rollup (rows : List (DailyRow F))
  /-- The daily refresh and the retention. -/
  | closed (closedStatsDaily : Closed F) (closedFetchState : Table FetchState.itemId)

def State.step : Machine (State F) (Label Body F)
  | s, .start items now =>
      if s.shared.status.state = .running then some s
      else some { s with
        shared := { s.shared with status := .started now items.length }
        runs := s.runs ++ [⟨items, .spawned⟩] }
  | s, .run i l =>
      match s.runs[i]? with
      | some r =>
          match r.step reader s.shared l with
          | some (shared, some r) => some { s with shared, runs := s.runs.set i r }
          | some (shared, none) => some { s with shared, runs := s.runs.eraseIdx i, returning := s.returning + 1 }
          | none => none
      | none => none
  | s, .panic i message =>
      if i < s.runs.length then some { s with runs := s.runs.eraseIdx i, panicked := s.panicked ++ [message] }
      else none
  | s, .watch i now =>
      match s.panicked[i]? with
      | some message => some { s with
          shared := { s.shared with status := s.shared.status.fail now message }
          panicked := s.panicked.eraseIdx i }
      | none => none
  | s, .returned => if 0 < s.returning then some { s with returning := s.returning - 1 } else none
  | s, .latePanic message =>
      if 0 < s.returning then
        some { s with returning := s.returning - 1, panicked := s.panicked ++ [message] }
      else none
  | s, .rollup rows =>
      some { s with shared := { s.shared with
        itemStatsDaily := rows.foldl Table.insertOrReplace s.shared.itemStatsDaily } }
  | s, .closed closedStatsDaily closedFetchState =>
      some { s with shared := { s.shared with closedStatsDaily, closedFetchState } }

end Steps

/-! ### What a step does -/

section Moves

variable {reader : Reader Body F}

/-- The steps of a run. -/
inductive RunMove (date : String → Day) (w : Shared F) : Run F → Shared F → Option (Run F) → Prop
  | begin (items : List Item) (now : String) : RunMove date w ⟨items, .spawned⟩
      { w with status := .started now items.length, given := items, counted := [], added := 0 }
      (some ⟨items, if items.isEmpty then .empty else .next⟩)
  | empty (items : List Item) (now : String) :
      RunMove date w ⟨items, .empty⟩ { w with status := w.status.fail now "no tradable items in the cache" } none
  | fetched (item : Item) (items : List Item) (days : List (ClosedDay F)) :
      RunMove date w ⟨item :: items, .next⟩ w (some ⟨items, .fetched item.1 days⟩)
  | answered (item : Item) (items : List Item) {outcome : Outcome} : (∀ days, outcome ≠ .stored days) →
      RunMove date w ⟨item :: items, .next⟩ w (some ⟨items, .resolved item.1 outcome 0⟩)
  | inserted (items : List Item) (itemId : String) (days : List (ClosedDay F)) :
      RunMove date w ⟨items, .fetched itemId days⟩
        { w with
          itemStatsDaily := (insertMissing date w.itemStatsDaily itemId days).2
          added := w.added + ((insertMissing date w.itemStatsDaily itemId days).2.rows.length -
            w.itemStatsDaily.rows.length) }
        (some ⟨items, .inserted itemId days (insertMissing date w.itemStatsDaily itemId days).1⟩)
  | upserted (items : List Item) (itemId : String) (days : List (ClosedDay F)) (inserted : Nat) :
      RunMove date w ⟨items, .inserted itemId days inserted⟩
        { w with closedStatsDaily := (upsertDays w.closedStatsDaily itemId days).2 }
        (some ⟨items, .upserted itemId inserted⟩)
  | recorded (items : List Item) (itemId now : String) (inserted : Nat) :
      RunMove date w ⟨items, .upserted itemId inserted⟩
        { w with closedFetchState := w.closedFetchState.insertOrReplace ⟨itemId, now, "ok"⟩ }
        (some ⟨items, .resolved itemId (.stored inserted) inserted⟩)
  | failed (items : List Item) {p : Phase F} {itemId : String} {inserted : Nat} (message : String) :
      p.pending = some (itemId, inserted) →
      RunMove date w ⟨items, p⟩ w (some ⟨items, .resolved itemId (.failed message) inserted⟩)
  | count (items : List Item) (itemId : String) (outcome : Outcome) (inserted : Nat) :
      RunMove date w ⟨items, .resolved itemId outcome inserted⟩
        { w with status := countOutcome w.status outcome, counted := w.counted ++ [⟨itemId, outcome, inserted⟩] }
        (some ⟨items, .counted⟩)
  | tally (items : List Item) : RunMove date w ⟨items, .counted⟩
      { w with status := { w.status with itemsDone := w.status.itemsDone + 1 } } (some ⟨items, .next⟩)
  | finish (now : String) : RunMove date w ⟨[], .next⟩ { w with status := w.status.finish now } none

theorem afterFetch_cases (itemId : String) (answer : Except FetchError Body) :
    (∃ days, afterFetch reader itemId answer = .fetched itemId days) ∨
      ∃ outcome, (∀ days, outcome ≠ .stored days) ∧ afterFetch reader itemId answer = .resolved itemId outcome 0 := by
  cases answer with
  | ok body =>
      rw [afterFetch]
      cases parseStatistics reader body with
      | ok days => exact .inl ⟨days, rfl⟩
      | error e => exact .inr ⟨.failed e.message, by rintro days ⟨⟩, rfl⟩
  | error e =>
      cases e with
      | notFound => exact .inr ⟨.missing, by rintro days ⟨⟩, rfl⟩
      | rateLimited | blocked | transient _ | invalid _ => exact .inr ⟨.failed _, by rintro days ⟨⟩, rfl⟩

theorem run_move {w w' : Shared F} {r : Run F} {r' : Option (Run F)} {l : RunLabel Body}
    (h : r.step reader w l = some (w', r')) : RunMove reader.date w r w' r' := by
  obtain ⟨items, phase⟩ := r
  cases l with
  | begin now =>
      cases phase with
      | spawned =>
          cases h
          exact .begin items now
      | empty | next | fetched _ _ | inserted _ _ _ | upserted _ _ | resolved _ _ _ | counted => cases h
  | empty now =>
      cases phase with
      | empty =>
          cases h
          exact .empty items now
      | spawned | next | fetched _ _ | inserted _ _ _ | upserted _ _ | resolved _ _ _ | counted => cases h
  | fetch source =>
      cases phase with
      | next =>
          cases items with
          | nil => cases h
          | cons item items =>
              cases h
              rcases @afterFetch_cases Body F reader item.1 (Statistics.fetchWithRetries source) with
                ⟨days, hafter⟩ | ⟨outcome, hstored, hafter⟩
              · rw [hafter]
                exact .fetched item items days
              · rw [hafter]
                exact .answered item items hstored
      | spawned | empty | fetched _ _ | inserted _ _ _ | upserted _ _ | resolved _ _ _ | counted => cases h
  | insert error =>
      cases phase with
      | fetched itemId days =>
          cases error with
          | none =>
              cases h
              exact .inserted items itemId days
          | some message =>
              cases h
              exact .failed items message rfl
      | spawned | empty | next | inserted _ _ _ | upserted _ _ | resolved _ _ _ | counted => cases h
  | upsert error =>
      cases phase with
      | inserted itemId days inserted =>
          cases error with
          | none =>
              cases h
              exact .upserted items itemId days inserted
          | some message =>
              cases h
              exact .failed items message rfl
      | spawned | empty | next | fetched _ _ | upserted _ _ | resolved _ _ _ | counted => cases h
  | record now error =>
      cases phase with
      | upserted itemId inserted =>
          cases error with
          | none =>
              cases h
              exact .recorded items itemId now inserted
          | some message =>
              cases h
              exact .failed items message rfl
      | spawned | empty | next | fetched _ _ | inserted _ _ _ | resolved _ _ _ | counted => cases h
  | count =>
      cases phase with
      | resolved itemId outcome inserted =>
          cases h
          exact .count items itemId outcome inserted
      | spawned | empty | next | fetched _ _ | inserted _ _ _ | upserted _ _ | counted => cases h
  | tally =>
      cases phase with
      | counted =>
          cases h
          exact .tally items
      | spawned | empty | next | fetched _ _ | inserted _ _ _ | upserted _ _ | resolved _ _ _ => cases h
  | finish now =>
      cases phase with
      | next =>
          cases items with
          | nil =>
              cases h
              exact .finish now
          | cons item items => cases h
      | spawned | empty | fetched _ _ | inserted _ _ _ | upserted _ _ | resolved _ _ _ | counted => cases h

/-- The steps of the process. -/
inductive Move (reader : Reader Body F) (s : State F) : Label Body F → State F → Prop
  | refused (items : List Item) (now : String) : s.shared.status.state = .running → Move reader s (.start items now) s
  | start (items : List Item) (now : String) : s.shared.status.state ≠ .running → Move reader s (.start items now)
      { s with
        shared := { s.shared with status := .started now items.length }
        runs := s.runs ++ [⟨items, .spawned⟩] }
  | run {i : Nat} {l : RunLabel Body} {r r' : Run F} {w : Shared F} : s.runs[i]? = some r →
      RunMove reader.date s.shared r w (some r') →
      Move reader s (.run i l) { s with shared := w, runs := s.runs.set i r' }
  | ended {i : Nat} {l : RunLabel Body} {r : Run F} {w : Shared F} : s.runs[i]? = some r →
      RunMove reader.date s.shared r w none →
      Move reader s (.run i l) { s with shared := w, runs := s.runs.eraseIdx i, returning := s.returning + 1 }
  | panic {i : Nat} (message : String) : i < s.runs.length →
      Move reader s (.panic i message) { s with runs := s.runs.eraseIdx i, panicked := s.panicked ++ [message] }
  | watch {i : Nat} {message : String} (now : String) : s.panicked[i]? = some message → Move reader s (.watch i now)
      { s with
        shared := { s.shared with status := s.shared.status.fail now message }
        panicked := s.panicked.eraseIdx i }
  | returned : 0 < s.returning → Move reader s .returned { s with returning := s.returning - 1 }
  | latePanic (message : String) : 0 < s.returning → Move reader s (.latePanic message)
      { s with returning := s.returning - 1, panicked := s.panicked ++ [message] }
  | rollup (rows : List (DailyRow F)) : Move reader s (.rollup rows)
      { s with shared := { s.shared with
        itemStatsDaily := rows.foldl Table.insertOrReplace s.shared.itemStatsDaily } }
  | closed (closedStatsDaily : Closed F) (closedFetchState : Table FetchState.itemId) :
      Move reader s (.closed closedStatsDaily closedFetchState)
        { s with shared := { s.shared with closedStatsDaily, closedFetchState } }

theorem step_move {s t : State F} {l : Label Body F} (h : s.step reader l = some t) : Move reader s l t := by
  cases l with
  | start items now =>
      simp only [State.step] at h
      split at h
      · next hrunning =>
          cases h
          exact .refused items now hrunning
      · next hfree =>
          cases h
          exact .start items now hfree
  | run i l =>
      simp only [State.step] at h
      split at h
      · next hrun =>
          split at h
          · next hstep =>
              cases h
              exact .run hrun (run_move hstep)
          · next hstep =>
              cases h
              exact .ended hrun (run_move hstep)
          · cases h
      · cases h
  | panic i message =>
      simp only [State.step] at h
      split at h
      · next hi =>
          cases h
          exact .panic message hi
      · cases h
  | watch i now =>
      simp only [State.step] at h
      split at h
      · next hmessage =>
          cases h
          exact .watch now hmessage
      · cases h
  | returned =>
      simp only [State.step] at h
      split at h
      · next hreturning =>
          cases h
          exact .returned hreturning
      · cases h
  | latePanic message =>
      simp only [State.step] at h
      split at h
      · next hreturning =>
          cases h
          exact .latePanic message hreturning
      · cases h
  | rollup rows =>
      cases h
      exact .rollup rows
  | closed closedStatsDaily closedFetchState =>
      cases h
      exact .closed closedStatsDaily closedFetchState

end Moves

/-! ### The counts -/

section Counts

theorem insertDay_length (date : String → Day) (itemId : String) (acc : Nat × DailyTable F) (d : ClosedDay F) :
    (insertDay date itemId acc d).2.rows.length + acc.1 = acc.2.rows.length + (insertDay date itemId acc d).1 := by
  by_cases hfound : (acc.2.lookup (itemId, d.subType, date d.day)).isSome
  · have hkept : acc.2.insertOrIgnore (statsRow date itemId d) = acc.2 := if_pos hfound
    rw [insertDay, hkept, if_pos hfound]
  · have hadded : acc.2.insertOrIgnore (statsRow date itemId d) = acc.2.insertOrReplace (statsRow date itemId d) :=
      if_neg hfound
    have hkey : (itemId, d.subType, date d.day) ∉ acc.2.rows.map fun r => (r.itemId, r.subType, r.stat.day) :=
      Table.lookup_eq_none.mp (Option.not_isSome_iff_eq_none.mp hfound)
    have hother : (acc.2.rows.filter fun r => (r.itemId, r.subType, r.stat.day) ≠ (itemId, d.subType, date d.day)) =
        acc.2.rows := Table.filter_of_not_mem hkey
    rw [insertDay, hadded, if_neg hfound, Table.rows_insertOrReplace]
    show ((acc.2.rows.filter fun r => (r.itemId, r.subType, r.stat.day) ≠ (itemId, d.subType, date d.day)) ++
      [statsRow date itemId d]).length + acc.1 = _
    rw [hother, List.length_append, List.length_singleton]
    omega

/-- The rows that are reported are those the table grew by. -/
theorem insertMissing_length (date : String → Day) (t : DailyTable F) (itemId : String) (days : List (ClosedDay F)) :
    (insertMissing date t itemId days).2.rows.length = t.rows.length + (insertMissing date t itemId days).1 := by
  have hfold : ∀ acc : Nat × DailyTable F, (days.foldl (insertDay date itemId) acc).2.rows.length + acc.1 =
      acc.2.rows.length + (days.foldl (insertDay date itemId) acc).1 := by
    induction days with
    | nil => exact fun _ => rfl
    | cons d days ih =>
        intro acc
        have hfirst := insertDay_length date itemId acc d
        have hrest := ih (insertDay date itemId acc d)
        rw [List.foldl_cons]
        omega
  exact hfold (0, t)

def Outcome.days : Outcome → Nat
  | .stored days => days
  | _ => 0

def Outcome.isMissing : Outcome → Bool
  | .missing => true
  | _ => false

def Outcome.isFailed : Outcome → Bool
  | .failed _ => true
  | _ => false

@[simp] theorem days_stored (days : Nat) : (Outcome.stored days).days = days := rfl

@[simp] theorem days_missing : Outcome.missing.days = 0 := rfl

@[simp] theorem days_failed (message : String) : (Outcome.failed message).days = 0 := rfl

@[simp] theorem isMissing_stored (days : Nat) : (Outcome.stored days).isMissing = false := rfl

@[simp] theorem isMissing_missing : Outcome.missing.isMissing = true := rfl

@[simp] theorem isMissing_failed (message : String) : (Outcome.failed message).isMissing = false := rfl

@[simp] theorem isFailed_stored (days : Nat) : (Outcome.stored days).isFailed = false := rfl

@[simp] theorem isFailed_missing : Outcome.missing.isFailed = false := rfl

@[simp] theorem isFailed_failed (message : String) : (Outcome.failed message).isFailed = true := rfl

/-- How the rows of an item's insert go with its outcome. -/
def Outcome.Fits : Outcome → Nat → Prop
  | .stored days, inserted => days = inserted
  | .missing, inserted => inserted = 0
  | .failed _, _ => True

/-- The counters of the status are those of the items counted so far. -/
structure Sums (w : Shared F) : Prop where
  days : w.status.daysInserted = (w.counted.map fun c => c.outcome.days).sum
  missing : w.status.itemsMissing = w.counted.countP fun c => c.outcome.isMissing
  failed : w.status.itemsFailed = w.counted.countP fun c => c.outcome.isFailed
  fits : ∀ c ∈ w.counted, c.outcome.Fits c.inserted

/-- The item that is taken and not counted yet, with the rows its insert added. -/
def Phase.taken : Phase F → Option (String × Nat)
  | .resolved itemId _ rows => some (itemId, rows)
  | p => p.pending

/-- One where an item is counted and not yet done. -/
def Phase.ahead : Phase F → Nat
  | .counted => 1
  | _ => 0

/-- A run that has begun, half way through its items. -/
structure Accounts (w : Shared F) (r : Run F) : Prop where
  state : w.status.state = .running
  given : r.phase = .empty ∨ w.given ≠ []
  total : w.status.itemsTotal = w.given.length
  items : w.given.map Prod.fst =
    w.counted.map Counted.itemId ++ ((r.phase.taken.map Prod.fst).toList ++ r.items.map Prod.fst)
  done : w.status.itemsDone + r.phase.ahead = w.counted.length
  added : w.added = (w.counted.map Counted.inserted).sum + r.phase.taken.elim 0 Prod.snd
  sums : Sums w
  fits : ∀ itemId outcome inserted, r.phase = .resolved itemId outcome inserted → outcome.Fits inserted

/-- A run that is done: every item once and in order, every counter that of the outcomes, and the rows the run added
are the days it reports and those of items that failed after their insert. -/
structure Complete (w : Shared F) : Prop where
  given : w.given ≠ []
  items : w.counted.map Counted.itemId = w.given.map Prod.fst
  total : w.status.itemsTotal = w.given.length
  done : w.status.itemsDone = w.given.length
  sums : Sums w
  added : (w.added : Int) = w.status.daysInserted +
    ((w.counted.filter fun c => c.outcome.isFailed).map Counted.inserted).sum

theorem sum_inserted {counted : List Counted} (h : ∀ c ∈ counted, c.outcome.Fits c.inserted) :
    (counted.map Counted.inserted).sum = (counted.map fun c => c.outcome.days).sum +
      ((counted.filter fun c => c.outcome.isFailed).map Counted.inserted).sum := by
  induction counted with
  | nil => rfl
  | cons c counted ih =>
      have hrest := ih fun c' hc' => h c' (List.mem_cons_of_mem _ hc')
      obtain ⟨itemId, outcome, inserted⟩ := c
      have hfits : outcome.Fits inserted := h ⟨itemId, outcome, inserted⟩ List.mem_cons_self
      cases outcome with
      | stored days =>
          have hdays : days = inserted := hfits
          simp only [List.map_cons, List.sum_cons, List.filter_cons, days_stored, isFailed_stored, Bool.false_eq_true,
            if_false]
          omega
      | missing =>
          have hzero : inserted = 0 := hfits
          simp only [List.map_cons, List.sum_cons, List.filter_cons, days_missing, isFailed_missing, Bool.false_eq_true,
            if_false]
          omega
      | failed message =>
          simp only [List.map_cons, List.sum_cons, List.filter_cons, days_failed, isFailed_failed, if_true]
          omega

theorem Sums.count {w : Shared F} (h : Sums w) {itemId : String} {outcome : Outcome} {inserted : Nat}
    (hfits : outcome.Fits inserted) :
    Sums { w with status := countOutcome w.status outcome, counted := w.counted ++ [⟨itemId, outcome, inserted⟩] } where
  days := by
    have hdays := h.days
    rw [List.map_append, List.sum_append, Int.natCast_add, ← hdays]
    cases outcome with
    | stored days | missing | failed message => simp [countOutcome]
  missing := by
    have hmissing := h.missing
    rw [List.countP_append, Int.natCast_add, ← hmissing]
    cases outcome with
    | stored days | missing | failed message => simp [countOutcome]
  failed := by
    have hfailed := h.failed
    rw [List.countP_append, Int.natCast_add, ← hfailed]
    cases outcome with
    | stored days | missing | failed message => simp [countOutcome]
  fits c hc := by
    rcases List.mem_append.mp hc with hold | hnew
    · exact h.fits c hold
    · rw [List.mem_singleton.mp hnew]
      exact hfits

/-- A step of a run keeps its accounts; the first one opens them. -/
theorem RunMove.accounts {date : String → Day} {w w' : Shared F} {r r' : Run F} (h : RunMove date w r w' (some r'))
    (hr : r.phase ≠ .spawned → Accounts w r) : Accounts w' r' := by
  cases h with
  | begin items now =>
      cases items with
      | nil => exact ⟨rfl, .inl rfl, rfl, rfl, rfl, rfl, ⟨rfl, rfl, rfl, by rintro c ⟨⟩⟩, by rintro _ _ _ ⟨⟩⟩
      | cons item items =>
          exact ⟨rfl, .inr (List.cons_ne_nil _ _), rfl, rfl, rfl, rfl, ⟨rfl, rfl, rfl, by rintro c ⟨⟩⟩,
            by rintro _ _ _ ⟨⟩⟩
  | fetched item items days =>
      obtain ⟨hstate, hgiven, htotal, hitems, hdone, hadded, hsums, -⟩ := hr (by rintro ⟨⟩)
      exact ⟨hstate, .inr (hgiven.resolve_left (by rintro ⟨⟩)), htotal, hitems, hdone, hadded, hsums,
        by rintro _ _ _ ⟨⟩⟩
  | @answered item items outcome hstored =>
      obtain ⟨hstate, hgiven, htotal, hitems, hdone, hadded, hsums, -⟩ := hr (by rintro ⟨⟩)
      refine ⟨hstate, .inr (hgiven.resolve_left (by rintro ⟨⟩)), htotal, hitems, hdone, hadded, hsums, ?_⟩
      intro itemId outcome' inserted hphase
      cases hphase
      cases outcome with
      | stored days => exact absurd rfl (hstored days)
      | missing => exact rfl
      | failed message => exact trivial
  | inserted items itemId days =>
      obtain ⟨hstate, hgiven, htotal, hitems, hdone, hadded, hsums, -⟩ := hr (by rintro ⟨⟩)
      refine ⟨hstate, .inr (hgiven.resolve_left (by rintro ⟨⟩)), htotal, hitems, hdone, ?_, ⟨hsums.1, hsums.2, hsums.3,
        hsums.4⟩, by rintro _ _ _ ⟨⟩⟩
      have hgrown := insertMissing_length date w.itemStatsDaily itemId days
      simp only [Phase.taken, Phase.pending, Option.elim] at hadded ⊢
      omega
  | upserted items itemId days rows =>
      obtain ⟨hstate, hgiven, htotal, hitems, hdone, hadded, hsums, -⟩ := hr (by rintro ⟨⟩)
      exact ⟨hstate, .inr (hgiven.resolve_left (by rintro ⟨⟩)), htotal, hitems, hdone, hadded, ⟨hsums.1, hsums.2,
        hsums.3, hsums.4⟩, by rintro _ _ _ ⟨⟩⟩
  | recorded items itemId now rows =>
      obtain ⟨hstate, hgiven, htotal, hitems, hdone, hadded, hsums, -⟩ := hr (by rintro ⟨⟩)
      refine ⟨hstate, .inr (hgiven.resolve_left (by rintro ⟨⟩)), htotal, hitems, hdone, hadded, ⟨hsums.1, hsums.2,
        hsums.3, hsums.4⟩, ?_⟩
      intro itemId' outcome inserted hphase
      cases hphase
      exact rfl
  | @failed items p itemId rows message hpending =>
      have hp : p.taken = some (itemId, rows) ∧ p ≠ .spawned ∧ p ≠ .empty ∧ p.ahead = 0 := by
        cases p with
        | spawned | empty | next | resolved _ _ _ | counted => cases hpending
        | fetched _ _ | inserted _ _ _ | upserted _ _ =>
            exact ⟨hpending, by rintro ⟨⟩, by rintro ⟨⟩, rfl⟩
      obtain ⟨htaken, hspawned, hempty, hahead⟩ := hp
      obtain ⟨hstate, hgiven, htotal, hitems, hdone, hadded, hsums, -⟩ := hr hspawned
      simp only [htaken, hahead] at hitems hdone hadded
      refine ⟨hstate, .inr (hgiven.resolve_left hempty), htotal, hitems, hdone, hadded, hsums, ?_⟩
      intro itemId' outcome inserted hphase
      cases hphase
      exact trivial
  | count items itemId outcome rows =>
      obtain ⟨hstate, hgiven, htotal, hitems, hdone, hadded, hsums, hfits⟩ := hr (by rintro ⟨⟩)
      have hstatus : (countOutcome w.status outcome).state = w.status.state ∧
          (countOutcome w.status outcome).itemsTotal = w.status.itemsTotal ∧
          (countOutcome w.status outcome).itemsDone = w.status.itemsDone := by
        cases outcome with
        | stored _ | missing | failed _ => exact ⟨rfl, rfl, rfl⟩
      refine ⟨hstatus.1.trans hstate, .inr (hgiven.resolve_left (by rintro ⟨⟩)), hstatus.2.1.trans htotal, ?_, ?_, ?_,
        hsums.count (hfits itemId outcome rows rfl), by rintro _ _ _ ⟨⟩⟩
      · simp only [hitems, Phase.taken, Phase.pending, Option.map_some, Option.toList_some, List.map_append,
          List.map_cons, List.map_nil, Option.map_none, Option.toList_none, List.nil_append, List.append_assoc]
      · simp only [hstatus.2.2, Phase.ahead, List.length_append, List.length_singleton] at hdone ⊢
        omega
      · simp only [Phase.taken, Phase.pending, Option.elim, List.map_append, List.map_cons, List.map_nil,
          List.sum_append, List.sum_cons, List.sum_nil] at hadded ⊢
        omega
  | tally items =>
      obtain ⟨hstate, hgiven, htotal, hitems, hdone, hadded, hsums, -⟩ := hr (by rintro ⟨⟩)
      refine ⟨hstate, .inr (hgiven.resolve_left (by rintro ⟨⟩)), htotal, hitems, ?_, hadded, ⟨hsums.1, hsums.2, hsums.3,
        hsums.4⟩, by rintro _ _ _ ⟨⟩⟩
      simp only [Phase.ahead] at hdone ⊢
      omega

/-- A run that returns leaves a status that is not running, and is done only with every item. -/
theorem RunMove.ended {date : String → Day} {w w' : Shared F} {r : Run F} (h : RunMove date w r w' none)
    (hr : r.phase ≠ .spawned → Accounts w r) :
    w'.status.state ≠ .running ∧ (w'.status.state = .done → Complete w') := by
  cases h with
  | empty items now => exact ⟨by rintro ⟨⟩, by rintro ⟨⟩⟩
  | finish now =>
      obtain ⟨-, hgiven, htotal, hitems, hdone, hadded, hsums, -⟩ := hr (by rintro ⟨⟩)
      have hcounted : w.counted.map Counted.itemId = w.given.map Prod.fst := by
        rw [hitems]
        exact (List.append_nil _).symm
      have hlength : w.counted.length = w.given.length := by
        have hmapped := congrArg List.length hcounted
        rwa [List.length_map, List.length_map] at hmapped
      refine ⟨by rintro ⟨⟩, fun _ => ⟨hgiven.resolve_left (by rintro ⟨⟩), hcounted, htotal, ?_,
        ⟨hsums.1, hsums.2, hsums.3, hsums.4⟩, ?_⟩⟩
      · show w.status.itemsDone = w.given.length
        rw [← hlength]
        exact (add_zero _).symm.trans hdone
      · have hsum := sum_inserted hsums.fits
        show (w.added : Int) = w.status.daysInserted +
          ((w.counted.filter fun c => c.outcome.isFailed).map Counted.inserted).sum
        rw [hsums.days]
        simp only [Phase.taken, Phase.pending, Option.elim] at hadded
        omega

end Counts

/-! ### One run at a time -/

section Runs

variable {reader : Reader Body F}

/-- At most one run is alive or has its panic to be reported, and the status says so; what it counts is right. -/
structure Sound (s : State F) : Prop where
  one : s.runs.length + s.panicked.length ≤ 1
  running : s.shared.status.state = .running ↔ 0 < s.runs.length + s.panicked.length
  accounts : ∀ r ∈ s.runs, r.phase ≠ .spawned → Accounts s.shared r
  complete : s.shared.status.state = .done → Complete s.shared

/-- The one run. -/
theorem Sound.only {s : State F} (h : Sound s) {i : Nat} {r : Run F} (hr : s.runs[i]? = some r) :
    s.runs = [r] ∧ i = 0 ∧ s.panicked = [] := by
  have hone := h.one
  match hs : s.runs, i, hr with
  | [], _, hr => cases hr
  | [_], 0, hr =>
      cases hr
      rw [hs, List.length_singleton] at hone
      exact ⟨rfl, rfl, List.length_eq_zero_iff.mp (by omega)⟩
  | _ :: _ :: _, _, _ =>
      rw [hs, List.length_cons, List.length_cons] at hone
      omega

/-- The tables are written by others too. -/
theorem Accounts.tables {w : Shared F} {r : Run F} (h : Accounts w r) (itemStatsDaily : DailyTable F)
    (closedStatsDaily : Closed F) (closedFetchState : Table FetchState.itemId) :
    Accounts { w with itemStatsDaily, closedStatsDaily, closedFetchState } r :=
  ⟨h.state, h.given, h.total, h.items, h.done, h.added, ⟨h.sums.1, h.sums.2, h.sums.3, h.sums.4⟩, h.fits⟩

theorem Complete.tables {w : Shared F} (h : Complete w) (itemStatsDaily : DailyTable F)
    (closedStatsDaily : Closed F) (closedFetchState : Table FetchState.itemId) :
    Complete { w with itemStatsDaily, closedStatsDaily, closedFetchState } :=
  ⟨h.given, h.items, h.total, h.done, ⟨h.sums.1, h.sums.2, h.sums.3, h.sums.4⟩, h.added⟩

theorem sound_step {s t : State F} {l : Label Body F} (h : Sound s) (hlate : ∀ message, l ≠ .latePanic message)
    (hstep : s.step reader l = some t) : Sound t := by
  cases step_move hstep with
  | refused items now hrunning => exact h
  | start items now hfree =>
      have hnone : s.runs.length + s.panicked.length = 0 := by
        have hrunning := h.running
        have := mt hrunning.mpr hfree
        omega
      have hruns : s.runs = [] := List.length_eq_zero_iff.mp (by omega)
      refine ⟨?_, ?_, ?_, by rintro ⟨⟩⟩
      · simp only [hruns, List.nil_append, List.length_singleton]
        omega
      · simp only [hruns, List.nil_append, List.length_singleton]
        exact ⟨fun _ => by omega, fun _ => rfl⟩
      · intro r hr hbegun
        rw [hruns, List.nil_append, List.mem_singleton] at hr
        rw [hr] at hbegun
        exact absurd rfl hbegun
  | @run i l r r' w hr hmove =>
      obtain ⟨hruns, rfl, hpanicked⟩ := h.only hr
      have haccounts := hmove.accounts (h.accounts r (hruns ▸ List.mem_singleton_self r))
      refine ⟨?_, ?_, ?_, ?_⟩
      · simp only [hruns, hpanicked, List.length_set, List.length_singleton, List.length_nil]
        omega
      · simp only [hruns, hpanicked, List.length_set, List.length_singleton, List.length_nil]
        exact ⟨fun _ => by omega, fun _ => haccounts.state⟩
      · intro r'' hr'' _
        rw [hruns, List.set_cons_zero, List.mem_singleton] at hr''
        rw [hr'']
        exact haccounts
      · intro hdone
        cases haccounts.state.symm.trans hdone
  | @ended i l r w hr hmove =>
      obtain ⟨hruns, rfl, hpanicked⟩ := h.only hr
      obtain ⟨hover, hcomplete⟩ := hmove.ended (h.accounts r (hruns ▸ List.mem_singleton_self r))
      refine ⟨?_, ?_, ?_, hcomplete⟩
      · simp only [hruns, hpanicked, List.eraseIdx_cons_zero, List.length_nil]
        omega
      · simp only [hruns, hpanicked, List.eraseIdx_cons_zero, List.length_nil]
        exact ⟨fun hrunning => absurd hrunning hover, fun hpos => by omega⟩
      · intro r' hr'
        rw [hruns, List.eraseIdx_cons_zero] at hr'
        cases hr'
  | @panic i message hi =>
      obtain ⟨hruns, rfl, hpanicked⟩ := h.only (List.getElem?_eq_getElem hi)
      have hrunning := h.running
      rw [hruns, hpanicked] at hrunning
      refine ⟨?_, ?_, ?_, ?_⟩
      · rw [hruns, hpanicked]
        exact le_refl 1
      · rw [hruns, hpanicked]
        exact hrunning
      · intro r' hr'
        rw [hruns] at hr'
        cases hr'
      · intro hdone
        cases (hrunning.mpr Nat.one_pos).symm.trans hdone
  | @watch i message now hmessage =>
      have hpos := List.getElem?_eq_some_iff.mp hmessage
      obtain ⟨hi, -⟩ := hpos
      have hone := h.one
      have hlength : (s.panicked.eraseIdx i).length = s.panicked.length - 1 := List.length_eraseIdx_of_lt hi
      have hruns : s.runs = [] := List.length_eq_zero_iff.mp (by omega)
      refine ⟨?_, ?_, ?_, by rintro ⟨⟩⟩
      · show s.runs.length + (s.panicked.eraseIdx i).length ≤ 1
        omega
      · constructor
        · rintro ⟨⟩
        · intro hpos
          have hzero : 0 < s.runs.length + (s.panicked.eraseIdx i).length := hpos
          rw [hruns, List.length_nil] at hzero
          omega
      · intro r hr
        rw [hruns] at hr
        cases hr
  | returned _ => exact ⟨h.one, h.running, h.accounts, h.complete⟩
  | latePanic message _ => exact absurd rfl (hlate message)
  | rollup rows =>
      exact ⟨h.one, h.running, fun r hr hbegun => (h.accounts r hr hbegun).tables _ _ _,
        fun hdone => (h.complete hdone).tables _ _ _⟩
  | closed closedStatsDaily closedFetchState =>
      exact ⟨h.one, h.running, fun r hr hbegun => (h.accounts r hr hbegun).tables _ _ _,
        fun hdone => (h.complete hdone).tables _ _ _⟩

/-- No run was ever started. -/
structure Fresh (s : State F) : Prop where
  status : s.shared.status = .fresh
  runs : s.runs = []
  returning : s.returning = 0
  panicked : s.panicked = []

theorem Fresh.sound {s : State F} (h : Fresh s) : Sound s := by
  obtain ⟨hstatus, hruns, -, hpanicked⟩ := h
  refine ⟨?_, ?_, ?_, ?_⟩
  · rw [hruns, hpanicked]
    exact Nat.zero_le 1
  · rw [hruns, hpanicked, hstatus]
    exact ⟨by rintro ⟨⟩, fun hpos => absurd hpos (Nat.lt_irrefl 0)⟩
  · rw [hruns]
    rintro r ⟨⟩
  · rw [hstatus]
    rintro ⟨⟩

theorem sound_run {s t : State F} {ls : List (Label Body F)} (h : Sound s) (run : Trace (State.step reader) s ls t)
    (hlate : ∀ message, .latePanic message ∉ ls) : Sound t := by
  induction run with
  | nil s => exact h
  | @cons s m t l ls first _ ih =>
      have hm := sound_step h (fun message heq => hlate message (heq ▸ List.mem_cons_self)) first
      exact ih hm fun message hmem => hlate message (List.mem_cons_of_mem _ hmem)

/-- Whatever starts, panics and other writers come in between: no two runs are at work, and the status is running
exactly while one is or its panic is still to be reported, so that a start is never refused for good. A status of
done stands for a whole run: every item in its order, and counters that add up. -/
theorem backfill_runs {s t : State F} {ls : List (Label Body F)} (h : Fresh s)
    (run : Trace (State.step reader) s ls t) (hlate : ∀ message, .latePanic message ∉ ls) :
    t.runs.length + t.panicked.length ≤ 1 ∧
      (t.shared.status.state = .running ↔ t.runs ≠ [] ∨ t.panicked ≠ []) ∧
      (t.shared.status.state = .done → Complete t.shared) := by
  have hsound := sound_run h.sound run hlate
  refine ⟨hsound.one, ?_, hsound.complete⟩
  rw [hsound.running, ← List.length_pos_iff, ← List.length_pos_iff]
  omega

/-! #### One item stored and one missing -/

/-- Every body has one day of three trades. -/
def threeTrades : Reader String Nat :=
  ⟨fun _ => .ok [⟨"1970-01-02T00:00:00.000+00:00", 3, none, none, some 10, none, none, none, none⟩], fun n => n,
    fun _ => 1⟩

def idle : State Nat := ⟨⟨.fresh, .empty, .empty, .empty, [], [], 0⟩, [], 0, []⟩

theorem idle_fresh : Fresh idle := ⟨rfl, rfl, rfl, rfl⟩

def twoItems : List (Label String Nat) :=
  [.start [("item1", "slug1"), ("item2", "slug2")] "now", .run 0 (.begin "now"), .run 0 (.fetch fun _ => .ok "body"),
    .run 0 (.insert none), .run 0 (.upsert none), .run 0 (.record "now" none), .run 0 .count, .run 0 .tally,
    .run 0 (.fetch fun _ => .error .notFound), .run 0 .count, .start [] "now", .run 0 .tally, .run 0 (.finish "now")]

/-- One day is imported, and a start in between is refused. -/
theorem backfill_runs_two : Complete (replay (State.step threeTrades) idle twoItems).shared ∧
    (replay (State.step threeTrades) idle twoItems).shared.status =
      ⟨.done, some "now", some "now", 2, 2, 1, 1, 0, none⟩ := by
  have hrun : Trace (State.step threeTrades) idle twoItems (replay (State.step threeTrades) idle twoItems) :=
    trace_replay rfl
  have hlate : ∀ message, .latePanic message ∉ twoItems := by
    intro message hmem
    simp [twoItems] at hmem
  exact ⟨(backfill_runs idle_fresh hrun hlate).2.2 rfl, rfl⟩

end Runs

/-! ### The rows of the collector -/

section Rows

variable {reader : Reader Body F}

/-- An item, a sub-type and a day. -/
abbrev RowKey := String × String × Day

def rowKey (r : DailyRow F) : RowKey := (r.itemId, r.subType, r.stat.day)

/-- The first day of an answer under the key. -/
def offered (date : String → Day) (itemId : String) (days : List (ClosedDay F)) (key : RowKey) : Option (DailyRow F) :=
  (days.map (statsRow date itemId)).find? fun r => decide (rowKey r = key)

theorem lookup_insertMissing (date : String → Day) (t : DailyTable F) (itemId : String) (days : List (ClosedDay F))
    (key : RowKey) :
    (insertMissing date t itemId days).2.lookup key = (t.lookup key).or (offered date itemId days key) := by
  have hfold : ∀ acc : Nat × DailyTable F,
      (days.foldl (insertDay date itemId) acc).2.lookup key = (acc.2.lookup key).or (offered date itemId days key) := by
    induction days with
    | nil => exact fun acc => (Option.or_none).symm
    | cons d days ih =>
        intro acc
        have hfirst : (insertDay date itemId acc d).2.lookup key =
            (acc.2.lookup key).or
              (if key = rowKey (statsRow date itemId d) then some (statsRow date itemId d) else none) :=
          Table.lookup_insertOrIgnore acc.2 (statsRow date itemId d) key
        rw [List.foldl_cons, ih, hfirst, Option.or_assoc, offered, offered, List.map_cons]
        by_cases hkey : rowKey (statsRow date itemId d) = key
        · have hdec : decide (rowKey (statsRow date itemId d) = key) = true := decide_eq_true hkey
          rw [if_pos hkey.symm, Option.some_or, List.find?_cons, hdec]
        · have hdec : decide (rowKey (statsRow date itemId d) = key) = false := decide_eq_false hkey
          rw [if_neg (Ne.symm hkey), Option.none_or, List.find?_cons, hdec]
  exact hfold (0, t)

/-- The row a label rebuilds under the key. -/
def Label.rebuilt (key : RowKey) : Label Body F → Option (DailyRow F)
  | .rollup rows => rows.reverse.find? fun r => decide (rowKey r = key)
  | _ => none

/-- The last row that was rebuilt under the key. -/
def lastRebuilt (key : RowKey) : List (Label Body F) → Option (DailyRow F)
  | [] => none
  | l :: ls => (lastRebuilt key ls).or (l.rebuilt key)

/-- A row stays, whatever the runs do, until the collector rebuilds it. -/
theorem lookup_step {s t : State F} {l : Label Body F} (hstep : s.step reader l = some t) {key : RowKey}
    {row : DailyRow F} (hrow : s.shared.itemStatsDaily.lookup key = some row) :
    t.shared.itemStatsDaily.lookup key = (l.rebuilt key).or (some row) := by
  have hrun : ∀ {r : Run F} {r' : Option (Run F)} {w : Shared F}, RunMove reader.date s.shared r w r' →
      w.itemStatsDaily.lookup key = some row := by
    intro r r' w hmove
    cases hmove with
    | inserted items itemId days =>
        rw [lookup_insertMissing, hrow, Option.some_or]
    | begin _ _ | empty _ _ | fetched _ _ _ | answered _ _ _ | upserted _ _ _ _ | recorded _ _ _ _ | failed _ _ _
    | count _ _ _ _ | tally _ | finish _ => exact hrow
  cases step_move hstep with
  | refused _ _ _ | start _ _ _ | panic _ _ | watch _ _ | returned _ | latePanic _ _ | closed _ _ => exact hrow
  | run _ hmove | ended _ hmove => exact hrun hmove
  | rollup rows =>
      have hfold := Table.lookup_foldl_insertOrReplace rows s.shared.itemStatsDaily key
      rw [hrow] at hfold
      exact hfold

theorem lookup_run {s t : State F} {ls : List (Label Body F)} (run : Trace (State.step reader) s ls t) {key : RowKey}
    {row : DailyRow F} (hrow : s.shared.itemStatsDaily.lookup key = some row) :
    t.shared.itemStatsDaily.lookup key = (lastRebuilt key ls).or (some row) := by
  induction run generalizing row with
  | nil s => exact hrow
  | @cons s m t l ls first _ ih =>
      have hm := lookup_step first hrow
      obtain ⟨row', hrow'⟩ : ∃ row', m.shared.itemStatsDaily.lookup key = some row' := by
        rw [hm]
        cases l.rebuilt key with
        | none => exact ⟨row, rfl⟩
        | some row' => exact ⟨row', rfl⟩
      rw [ih hrow', lastRebuilt, Option.or_assoc, ← hm, hrow']

/-- An import fills the gaps and nothing else: a day that the collector had, or an earlier import, keeps its row, a day
that was missing gets the first row of the answer, and each stays through every later run and import until the
collector rebuilds that day itself. -/
theorem import_fills_gaps {s m t : State F} {i : Nat} {r : Run F} {itemId : String} {days : List (ClosedDay F)}
    (hr : s.runs[i]? = some r) (hphase : r.phase = .fetched itemId days)
    (insert : s.step reader (.run i (.insert none)) = some m) {ls : List (Label Body F)}
    (run : Trace (State.step reader) m ls t) (key : RowKey) :
    (∀ row, s.shared.itemStatsDaily.lookup key = some row →
      t.shared.itemStatsDaily.lookup key = (lastRebuilt key ls).or (some row)) ∧
      (s.shared.itemStatsDaily.lookup key = none → ∀ row, offered reader.date itemId days key = some row →
        t.shared.itemStatsDaily.lookup key = (lastRebuilt key ls).or (some row)) := by
  have hm : m.shared.itemStatsDaily.lookup key =
      (s.shared.itemStatsDaily.lookup key).or (offered reader.date itemId days key) := by
    obtain ⟨items, phase⟩ := r
    cases hphase
    simp only [State.step, hr, Run.step, Option.some.injEq] at insert
    rw [← insert]
    exact lookup_insertMissing reader.date s.shared.itemStatsDaily itemId days key
  constructor
  · intro row hrow
    rw [hrow, Option.some_or] at hm
    exact lookup_run run hm
  · intro hnone row hrow
    rw [hnone, Option.none_or, hrow] at hm
    exact lookup_run run hm

def fetchedOne : State Nat := replay (State.step threeTrades) idle (twoItems.take 3)

def importedOne : State Nat := replay (State.step threeTrades) fetchedOne [.run 0 (.insert none)]

def importedTwice : State Nat := replay (State.step threeTrades) importedOne (twoItems.drop 4 ++ twoItems)

/-- The row of the first import is kept by the second. -/
theorem import_fills_gaps_twice : importedTwice.shared.itemStatsDaily.lookup ("item1", "", 1) =
    some ⟨"item1", "", ⟨1, 3, some 10, none, none⟩⟩ := by
  have hinsert : State.step threeTrades fetchedOne (.run 0 (.insert none)) = some importedOne := rfl
  have hrun : Trace (State.step threeTrades) importedOne (twoItems.drop 4 ++ twoItems) importedTwice :=
    trace_replay rfl
  have hmissing : fetchedOne.shared.itemStatsDaily.lookup ("item1", "", 1) = none := rfl
  exact (import_fills_gaps rfl rfl hinsert hrun ("item1", "", 1)).2 hmissing _ rfl

end Rows

end Quantframe.Collector.Backfill
