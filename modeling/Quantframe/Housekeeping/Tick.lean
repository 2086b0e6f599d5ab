import Quantframe.Housekeeping.Backup
import Quantframe.Lib.Log
import Quantframe.Trades.Events
import Quantframe.Utils.Grouping

/-!
# Housekeeping

Every minute the loop sweeps the alerts; once an hour it deletes old events, and once a day it makes the backup. What
it remembers between its ticks is gone when it is started anew. The statements of the other tasks, and those of the
sweep, come in between.
-/

namespace Quantframe.Housekeeping

open Lib
open Trades (Choice DateTime Error HelperEvent HelperEvents Op Reply Timestamp answer ts)
open Utils (dayNumber nanosPerDay nanosPerHour)

/-- What the loop keeps between its ticks. -/
structure Gates where
  lastHourly : Option DateTime
  /-- A failed backup is not retried until the next UTC day. -/
  backupFailedOn : Option Int

def Gates.default : Gates := ⟨none, none⟩

def hourly : DateTime := nanosPerHour

def retentionDays : Int := 90

/-- Deletes events received more than 90 days ago. -/
def applyRetention (now : DateTime) (t : HelperEvents) : HelperEvents where
  rows := t.rows.filter fun e => decide (ts (now - retentionDays * nanosPerDay) ≤ e.receivedAt)
  primaryKey := t.primaryKey.sublist (List.filter_sublist.map _)

/-- What a tick meets. -/
structure Pass where
  now : DateTime
  /-- What the sweep of the alerts returned. -/
  swept : Except Error Nat
  /-- Whether the database deletes. -/
  deletes : Except Error Unit
  copied : Except Error Unit
  listed : Except Error Unit
  removed : String → Except Error Unit

def Pass.today (p : Pass) : Int := dayNumber p.now

def Pass.attempt (p : Pass) : Attempt := ⟨p.today, p.copied, p.listed, p.removed⟩

structure TickReport where
  alerts : Nat
  deletedEvents : Option Nat
  backup : Option String

/-- What a tick leaves: `none` for a job that was not due. -/
structure Ticked where
  events : HelperEvents
  dir : List String
  gates : Gates
  retention : Option (Except Error Nat)
  backup : Option (Except Error (Option String))

section Tick

variable (dates : DateFormat)

/-- One housekeeping pass. The jobs are independent: one failing does not starve the others. -/
def tick (p : Pass) (events : HelperEvents) (dir : List String) (gates : Gates) : Ticked :=
  let kept := applyRetention p.now events
  let retention := if gates.lastHourly.all fun last => decide (hourly ≤ p.now - last)
    then some (p.deletes.map fun _ => events.rows.length - kept.rows.length) else none
  let attempted := run dates p.attempt dir
  let backup := if gates.backupFailedOn ≠ some p.today then some attempted.1 else none
  { events := match retention with
      | some (.ok _) => kept
      | _ => events
    dir := if backup.isSome then attempted.2 else dir
    gates :=
      { lastHourly := match retention with
          | some (.ok _) => some p.now
          | _ => gates.lastHourly
        backupFailedOn := match backup with
          | some (.error _) => some p.today
          | _ => gates.backupFailedOn }
    retention
    backup }

/-- The first error, once all the jobs were attempted. -/
def Ticked.result (out : Ticked) (p : Pass) : Except Error TickReport :=
  match p.swept, out.retention with
  | .error e, _ => .error e
  | .ok _, some (.error e) => .error e
  | .ok alerts, retention =>
    .ok ⟨alerts, retention.bind Except.toOption, (out.backup.bind Except.toOption).join⟩

end Tick

/-- `alert_backup_failed`. -/
structure BackupAlert where
  reason : String
  at_ : Timestamp

def Ticked.alert (out : Ticked) (p : Pass) : Option BackupAlert :=
  match out.backup with
  | some (.error e) => some ⟨e.message, ts p.now⟩
  | _ => none

/-! ### Runs -/

inductive Entry where
  | ticked (p : Pass) (out : Ticked)
  | restarted

structure Keeper where
  clock : DateTime
  events : HelperEvents
  dir : List String
  gates : Gates
  /-- When the tick under way began. -/
  sweeping : Option DateTime
  history : List Entry

inductive Label where
  | time (now : DateTime)
  | statement (o : Op) (choice : Choice)
  | wake
  | finish (p : Pass)
  | restart

/-- An insertion comes with the time of its request, and no request is so old. -/
def Stale (clock : DateTime) : Op → Prop
  | .insert e => e.receivedAt < ts (clock - retentionDays * nanosPerDay)
  | _ => False

instance (clock : DateTime) : DecidablePred (Stale clock)
  | .insert e => inferInstanceAs (Decidable (e.receivedAt < ts (clock - retentionDays * nanosPerDay)))
  | .exists _ | .get _ | .setStatus .. | .needingAlert _ | .markAlerted .. | .setReason .. | .foldSets _ | .price _
  | .applyItem .. | .notify _ | .alert _ => inferInstanceAs (Decidable False)

namespace Keeper

/-- The tick under way ends. -/
def finish (dates : DateFormat) (s : Keeper) (p : Pass) : Keeper :=
  let out := tick dates p s.events s.dir s.gates
  { s with
    events := out.events, dir := out.dir, gates := out.gates, sweeping := none
    history := s.history ++ [.ticked p out] }

/-- The loop is started anew. -/
def restart (s : Keeper) : Keeper :=
  { s with gates := .default, sweeping := none, history := s.history ++ [.restarted] }

def step (dates : DateFormat) : Machine Keeper Label
  | s, .time now => if s.clock ≤ now then some { s with clock := now } else none
  | s, .statement o choice =>
    if Stale s.clock o then none else (answer o choice s.events).map fun answered => { s with events := answered.2 }
  | s, .wake => if s.sweeping = none then some { s with sweeping := some s.clock } else none
  | s, .finish p => if s.sweeping = some p.now then some (s.finish dates p) else none
  | s, .restart => some s.restart

/-- What a step does, and when it is taken. -/
inductive Moves (dates : DateFormat) (s : Keeper) : Label → Keeper → Prop
  | time (now : DateTime) (h : s.clock ≤ now) : Moves dates s (.time now) { s with clock := now }
  | statement (o : Op) (choice : Choice) (reply : Reply o) (events : HelperEvents) (hfresh : ¬ Stale s.clock o)
      (h : answer o choice s.events = some (reply, events)) : Moves dates s (.statement o choice) { s with events }
  | wake (h : s.sweeping = none) : Moves dates s .wake { s with sweeping := some s.clock }
  | finish (p : Pass) (h : s.sweeping = some p.now) : Moves dates s (.finish p) (s.finish dates p)
  | restart : Moves dates s .restart s.restart

theorem moves {dates : DateFormat} {s t : Keeper} {l : Label} (h : step dates s l = some t) : Moves dates s l t := by
  cases l with
  | time now =>
      rw [step] at h
      split at h
      · next hle =>
          cases h
          exact .time now hle
      · cases h
  | statement o choice =>
      rw [step] at h
      split at h
      · cases h
      · next hfresh =>
          obtain ⟨⟨reply, events⟩, hanswer, rfl⟩ := Option.map_eq_some_iff.mp h
          exact .statement o choice reply events hfresh hanswer
  | wake =>
      rw [step] at h
      split at h
      · next hidle =>
          cases h
          exact .wake hidle
      · cases h
  | finish p =>
      rw [step] at h
      split at h
      · next hnow =>
          cases h
          exact .finish p hnow
      · cases h
  | restart =>
      cases h
      exact .restart

/-- The loop is started: it remembers nothing, and no backup is of a day to come. -/
structure Started (dates : DateFormat) (s : Keeper) : Prop where
  gates : s.gates = .default
  sweeping : s.sweeping = none
  history : s.history = []
  dir : ∀ date ∈ datesIn dates s.dir, date ≤ dayNumber s.clock

end Keeper

/-! ### What a tick does -/

section Tick

variable {dates : DateFormat} {p : Pass} {events : HelperEvents} {dir : List String} {gates : Gates}

theorem retention_tick : (tick dates p events dir gates).retention =
    if gates.lastHourly.all fun last => decide (hourly ≤ p.now - last)
      then some (p.deletes.map fun _ => events.rows.length - (applyRetention p.now events).rows.length) else none := rfl

theorem backup_tick : (tick dates p events dir gates).backup =
    if gates.backupFailedOn ≠ some p.today then some (run dates p.attempt dir).1 else none := rfl

theorem dir_tick : (tick dates p events dir gates).dir =
    if (tick dates p events dir gates).backup.isSome then (run dates p.attempt dir).2 else dir := rfl

theorem retention_due : (tick dates p events dir gates).retention = none ↔
    ∃ last, gates.lastHourly = some last ∧ p.now - last < hourly := by
  rw [retention_tick]
  cases gates.lastHourly with
  | none => simp
  | some last => simp

theorem backup_due : (tick dates p events dir gates).backup = none ↔ gates.backupFailedOn = some p.today := by
  rw [backup_tick]
  split
  · next hdue => exact ⟨fun hnone => by (cases hnone), fun hfailed => absurd hfailed hdue⟩
  · next hfailed => exact ⟨fun _ => not_not.mp hfailed, fun _ => rfl⟩

/-- The rows a tick leaves are those it found, or those of the last ninety days when it deleted. -/
theorem retention_cases :
    ((∃ n, (tick dates p events dir gates).retention = some (.ok n)) ∧
        (tick dates p events dir gates).events = applyRetention p.now events ∧
        (tick dates p events dir gates).gates.lastHourly = some p.now) ∨
      ((∀ n, (tick dates p events dir gates).retention ≠ some (.ok n)) ∧
        (tick dates p events dir gates).events = events ∧
        (tick dates p events dir gates).gates.lastHourly = gates.lastHourly) := by
  rw [tick]
  dsimp only
  split
  · cases p.deletes with
    | ok _ => exact .inl ⟨⟨_, rfl⟩, rfl, rfl⟩
    | error e => exact .inr ⟨fun n h => by (cases h), rfl, rfl⟩
  · exact .inr ⟨fun n h => by (cases h), rfl, rfl⟩

/-- A day is remembered when its backup failed, and then it was told. -/
theorem backup_cases :
    ((∃ e, (tick dates p events dir gates).backup = some (.error e)) ∧
        ((tick dates p events dir gates).alert p).isSome = true ∧
        (tick dates p events dir gates).gates.backupFailedOn = some p.today) ∨
      (((tick dates p events dir gates).alert p).isSome = false ∧
        (tick dates p events dir gates).gates.backupFailedOn = gates.backupFailedOn) := by
  have hfailedOn : (tick dates p events dir gates).gates.backupFailedOn =
      match (tick dates p events dir gates).backup with
        | some (.error _) => some p.today
        | _ => gates.backupFailedOn := rfl
  rw [hfailedOn, Ticked.alert]
  cases hbackup : (tick dates p events dir gates).backup with
  | none => exact .inr ⟨rfl, rfl⟩
  | some ran =>
      cases ran with
      | ok _ => exact .inr ⟨rfl, rfl⟩
      | error e => exact .inl ⟨⟨e, rfl⟩, rfl, rfl⟩

theorem top_greatest {s : Finset Int} {x : Int} {n : Nat} (hx : x ∈ s) (hmax : ∀ y ∈ s, y ≤ x) : x ∈ top (n + 1) s := by
  have hnone : above s x = 0 := by
    refine Finset.card_eq_zero.mpr (Finset.filter_eq_empty_iff.mpr ?_)
    intro y hy
    exact (hmax y hy).not_gt
  refine mem_top.mpr ⟨hx, ?_⟩
  omega

/-- A run adds at most the file of its day. -/
theorem dates_run (hreads : dates.Reads) (a : Attempt) (dir : List String) :
    ∀ date ∈ datesIn dates (run dates a dir).2, date ∈ datesIn dates dir ∨ date = a.today := by
  have hheld : Holds dates (dateSet dates dir) dir := ⟨kept_subset _, Finset.Subset.rfl⟩
  intro date hdate
  have hin := (hheld.run (a := a) hreads).1.2 (List.mem_toFinset.mpr hdate)
  rcases Finset.mem_union.mp hin with hold | hnew
  · exact .inl (List.mem_toFinset.mp hold)
  · rw [writes] at hnew
    split at hnew
    · exact .inr (List.mem_singleton.mp (List.mem_toFinset.mp hnew))
    · cases List.mem_toFinset.mp hnew

/-- A run without an error leaves a backup of its day, which is the newest. -/
theorem run_dated (hreads : dates.Reads) {a : Attempt} {dir : List String} {written : Option String}
    (hnewest : ∀ date ∈ datesIn dates dir, date ≤ a.today) (hrun : (run dates a dir).1 = .ok written) :
    a.today ∈ datesIn dates (run dates a dir).2 := by
  rw [run] at hrun ⊢
  by_cases hfile : fileName dates a.today ∈ dir
  · rw [if_pos hfile]
    exact mem_datesIn.mpr ⟨_, hfile, parseDate_fileName hreads _⟩
  · rw [if_neg hfile] at hrun ⊢
    cases hcopied : a.copied with
    | error e =>
        rw [hcopied] at hrun
        cases hrun
    | ok _ =>
        dsimp only
        have hkeeps := (@prune_spec dates a (dir ++ [fileName dates a.today])).1
        rw [dateSet_written hreads] at hkeeps
        have hin : a.today ∈ dateSet dates dir ∪ {a.today} := Finset.mem_union_right _ (Finset.mem_singleton_self _)
        have hmax : ∀ y ∈ dateSet dates dir ∪ {a.today}, y ≤ a.today := by
          intro y hy
          rcases Finset.mem_union.mp hy with hold | hnew
          · exact hnewest y (List.mem_toFinset.mp hold)
          · exact (Finset.mem_singleton.mp hnew).le
        have hkept : a.today ∈ kept (dateSet dates dir ∪ {a.today}) :=
          Finset.mem_union_left _ (top_greatest hin hmax)
        exact List.mem_toFinset.mp (hkeeps hkept)

/-- After a tick there is a backup of the day, unless its backup failed now or before. -/
theorem tick_dated (hreads : dates.Reads) (hnewest : ∀ date ∈ datesIn dates dir, date ≤ p.today) :
    p.today ∈ datesIn dates (tick dates p events dir gates).dir ∨
      ((tick dates p events dir gates).alert p).isSome = true ∨ gates.backupFailedOn = some p.today := by
  by_cases hfailed : gates.backupFailedOn = some p.today
  · exact .inr (.inr hfailed)
  · have hbackup : (tick dates p events dir gates).backup = some (run dates p.attempt dir).1 := if_pos hfailed
    rw [dir_tick, Ticked.alert, hbackup]
    cases hrun : (run dates p.attempt dir).1 with
    | ok written => exact .inl (run_dated hreads hnewest hrun)
    | error e => exact .inr (.inl rfl)

theorem dates_tick (hreads : dates.Reads) :
    ∀ date ∈ datesIn dates (tick dates p events dir gates).dir, date ∈ datesIn dates dir ∨ date = p.today := by
  rw [dir_tick]
  split
  · exact dates_run hreads p.attempt dir
  · exact fun date hdate => .inl hdate

end Tick

end Quantframe.Housekeeping
