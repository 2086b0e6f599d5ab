import Mathlib.Algebra.BigOperators.Group.List.Basic
import Mathlib.Data.List.Sort
import Quantframe.Lib.Calendar
import Quantframe.Lib.Digits
import Quantframe.LogParser.Dialog

/-!
# Grouping by date

The groups of a chart: which keys there are, what each holds, and the time range of a period.
-/

namespace Quantframe.Utils

open Lib Lib.Calendar
open LogParser (Text)
open Trades (DateTime)

inductive GroupByDate where
  | year
  | month
  | day
  | hour
  deriving DecidableEq, Repr

/-- The order of the variants. -/
def GroupByDate.rank : GroupByDate → Nat
  | .year => 0
  | .month => 1
  | .day => 2
  | .hour => 3

/-! ### Times, in nanoseconds since 1970 -/

def nanosPerHour : Int := 3600000000000
def nanosPerDay : Int := 86400000000000

def dayNumber (t : Int) : Int := t / nanosPerDay
def hourOf (t : Int) : Int := t % nanosPerDay / nanosPerHour

def midnight (day : Int) : Int := day * nanosPerDay

/-- `and_hms_opt`. -/
def atTime (day h m s : Int) : Int := midnight day + (h * 3600 + m * 60 + s) * 1000000000

theorem dayNumber_midnight (day : Int) : dayNumber (midnight day) = day := by
  rw [dayNumber, midnight, nanosPerDay]
  omega

theorem lt_midnight {t day : Int} : t < midnight day ↔ dayNumber t < day := by
  rw [dayNumber, midnight, nanosPerDay]
  omega

/-- The first and the last second of a period, in UTC. -/
def getStartEndOf (datetime : DateTime) (group : GroupByDate) : DateTime × DateTime :=
  let day := dayNumber datetime
  let year := yearOf day
  let month := monthOf day
  match group with
  | .year => (atTime (ofDate year 1 1) 0 0 0, atTime (ofDate year 12 31) 23 59 59)
  | .month =>
    let nextMonth := if month = 12 then ofDate (year + 1) 1 1 else ofDate year (month + 1) 1
    (atTime (ofDate year month 1) 0 0 0, atTime (nextMonth - 1) 23 59 59)
  | .day =>
    (atTime (ofDate year month (dayOfMonth day)) 0 0 0, atTime (ofDate year month (dayOfMonth day)) 23 59 59)
  | .hour =>
    (atTime (ofDate year month (dayOfMonth day)) (hourOf datetime) 0 0,
      atTime (ofDate year month (dayOfMonth day)) (hourOf datetime) 59 59)

/-! ### Keys -/

/-- `{:0width}`: the sign counts. -/
def padded (width : Nat) (n : Int) : Text :=
  if n < 0 then '-' :: (Nat.toDigits 10 n.natAbs).leftpad (width - 1) '0'
  else (Nat.toDigits 10 n.natAbs).leftpad width '0'

/-- `parts.join("-")`. -/
def joinParts : List Text → Text
  | [] => []
  | part :: rest => part ++ rest.flatMap ('-' :: ·)

def generateDateKey (dt : Int) (levels : List GroupByDate) : Text :=
  joinParts (levels.map fun level =>
    match level with
    | .year => padded 4 (yearOf (dayNumber dt))
    | .month => padded 2 (monthOf (dayNumber dt))
    | .day => padded 2 (dayOfMonth (dayNumber dt))
    | .hour => padded 2 (hourOf dt) ++ ":00".toList)

/-! ### Groups -/

section Groups

variable {K T : Type} [DecidableEq K]

/-- A `HashMap` of groups, as the keys came; what is made of it sorts them. -/
abbrev Grouped (K T : Type) := List (K × List T)

/-- `map.entry(key).or_default().push(item)`. -/
def pushTo (key : K) (item : T) : Grouped K T → Grouped K T
  | [] => [(key, [item])]
  | (k, group) :: rest => if k = key then (k, group ++ [item]) :: rest else (k, group) :: pushTo key item rest

def groupBy (items : List T) (keyFn : T → K) : Grouped K T :=
  items.foldl (fun map item => pushTo (keyFn item) item map) []

/-- `grouped.entry(key).or_insert_with(Vec::new)`. -/
def orInsert (grouped : Grouped K T) (key : K) : Grouped K T :=
  if key ∈ grouped.map Prod.fst then grouped else grouped ++ [(key, [])]

/-- The local time of the server: what its zone is ahead of UTC by at an instant. -/
abbrev Zone := DateTime → Int

def naiveLocal (zone : Zone) (t : DateTime) : Int := t + zone t

def groupByDate (zone : Zone) (items : List T) (dateExtractor : T → DateTime) (groupLevels : List GroupByDate) :
    Grouped Text T :=
  groupBy items fun item => generateDateKey (naiveLocal zone (dateExtractor item)) groupLevels

/-! ### The keys of the groups -/

/-- The keys of a `HashMap` once an entry is asked for. -/
def addKey (keys : List K) (key : K) : List K := if key ∈ keys then keys else keys ++ [key]

variable {keys : List K} {key other : K} {item : T} {grouped : Grouped K T}

theorem mem_addKey : other ∈ addKey keys key ↔ other ∈ keys ∨ other = key := by
  rw [addKey]
  split
  next hin =>
    constructor
    · exact .inl
    · rintro (hkey | rfl)
      · exact hkey
      · exact hin
  next => rw [List.mem_append, List.mem_singleton]

theorem nodup_addKey (h : keys.Nodup) : (addKey keys key).Nodup := by
  rw [addKey]
  split
  next => exact h
  next hnew => exact List.nodup_append.mpr ⟨h, List.nodup_singleton _, fun a ha b hb => by
    rw [List.mem_singleton.mp hb]
    rintro rfl
    exact hnew ha⟩

theorem mem_foldl_addKey {added : List K} : other ∈ added.foldl addKey keys ↔ other ∈ keys ∨ other ∈ added := by
  induction added generalizing keys with
  | nil => simp
  | cons key added ih => rw [List.foldl_cons, ih, mem_addKey, List.mem_cons, or_assoc]

theorem nodup_foldl_addKey (added : List K) (h : keys.Nodup) : (added.foldl addKey keys).Nodup := by
  induction added generalizing keys with
  | nil => exact h
  | cons key added ih => exact ih (nodup_addKey h)

theorem keys_pushTo : (pushTo key item grouped).map Prod.fst = addKey (grouped.map Prod.fst) key := by
  induction grouped with
  | nil => rfl
  | cons entry rest ih =>
      rw [pushTo]
      split
      next heq => simp [addKey, heq]
      next hne =>
        rw [List.map_cons, ih, List.map_cons, addKey, addKey]
        have hkey : key ≠ entry.1 := fun h => hne h.symm
        simp only [List.mem_cons, hkey, false_or]
        split
        next => rfl
        next => rfl

theorem keys_orInsert : (orInsert grouped key).map Prod.fst = addKey (grouped.map Prod.fst) key := by
  rw [orInsert, addKey]
  split
  next => rfl
  next => rw [List.map_append]; rfl

theorem keys_groupBy (items : List T) (keyFn : T → K) :
    (groupBy items keyFn).map Prod.fst = (items.map keyFn).foldl addKey [] := by
  have hrun : ∀ grouped : Grouped K T,
      (items.foldl (fun map item => pushTo (keyFn item) item map) grouped).map Prod.fst =
        (items.map keyFn).foldl addKey (grouped.map Prod.fst) := by
    induction items with
    | nil => exact fun _ => rfl
    | cons item items ih =>
        intro grouped
        rw [List.foldl_cons, ih, keys_pushTo]
        rfl
  exact hrun []

/-! ### What the groups add up to -/

section Total

variable {M : Type} [AddCommMonoid M] {value : List T → M} {weight : T → M}

def total (value : List T → M) (grouped : Grouped K T) : M := (grouped.map fun entry => value entry.2).sum

theorem total_pushTo (hnil : value [] = 0) (hpush : ∀ group item, value (group ++ [item]) = value group + weight item) :
    total value (pushTo key item grouped) = total value grouped + weight item := by
  induction grouped with
  | nil =>
      have hone : value [item] = weight item := by
        rw [← List.nil_append [item], hpush, hnil, zero_add]
      simp [pushTo, total, hone]
  | cons entry rest ih =>
      rw [pushTo]
      split
      next => simp only [total, List.map_cons, List.sum_cons, hpush, add_right_comm]
      next =>
        simp only [total, List.map_cons, List.sum_cons] at ih ⊢
        rw [ih, add_assoc]

theorem total_orInsert (hnil : value [] = 0) : total value (orInsert grouped key) = total value grouped := by
  rw [orInsert]
  split
  next => rfl
  next => simp [total, hnil]

theorem total_groupBy (hnil : value [] = 0) (hpush : ∀ group item, value (group ++ [item]) = value group + weight item)
    (items : List T) (keyFn : T → K) : total value (groupBy items keyFn) = (items.map weight).sum := by
  have hrun : ∀ grouped : Grouped K T,
      total value (items.foldl (fun map item => pushTo (keyFn item) item map) grouped) =
        total value grouped + (items.map weight).sum := by
    induction items with
    | nil => exact fun _ => (add_zero _).symm
    | cons item items ih =>
        intro grouped
        rw [List.foldl_cons, ih, total_pushTo hnil hpush, List.map_cons, List.sum_cons, add_assoc]
  rw [groupBy, hrun]
  exact zero_add _

end Total

end Groups

/-! ### Missing keys -/

/-- The cursor after one at a level. -/
def nextCursor (level : GroupByDate) (cursor : Int) : Int :=
  match level with
  | .hour => cursor + nanosPerHour
  | .day => cursor + nanosPerDay
  | .month =>
    let year := yearOf (dayNumber cursor)
    let month := monthOf (dayNumber cursor)
    if month = 12 then midnight (ofDate (year + 1) 1 1) else midnight (ofDate year (month + 1) 1)
  | .year => midnight (ofDate (yearOf (dayNumber cursor) + 1) 1 1)

theorem lt_nextCursor (level : GroupByDate) (cursor : Int) : cursor < nextCursor level cursor := by
  have hmonth : dayNumber cursor < ofDate (yearOf (dayNumber cursor)) (monthOf (dayNumber cursor) + 1) 1 :=
    lt_nextMonth _
  cases level with
  | hour =>
      simp only [nextCursor, nanosPerHour]
      omega
  | day =>
      simp only [nextCursor, nanosPerDay]
      omega
  | month =>
      simp only [nextCursor]
      split
      next hlast =>
        rw [lt_midnight, ofDate_newYear, ← ofDate_nextYear]
        rw [hlast] at hmonth
        exact hmonth
      next => exact lt_midnight.mpr hmonth
  | year =>
      rw [nextCursor, lt_midnight, ofDate_newYear]
      exact (yearOf_spec _).2

/-- The cursors of the loop over a period. -/
def cursors (level : GroupByDate) (end_ cursor : Int) : List Int :=
  if _h : cursor ≤ end_ then cursor :: cursors level end_ (nextCursor level cursor) else []
termination_by (end_ + 1 - cursor).toNat
decreasing_by
  have hlater := lt_nextCursor level cursor
  omega

/-- `group_by.iter().max()`. -/
def finest (levels : List GroupByDate) : Option GroupByDate :=
  levels.foldl (fun best level =>
    match best with
    | none => some level
    | some b => if b.rank ≤ level.rank then some level else some b) none

/-- Without a level the loop ends after its first key. -/
def fillMissingDateKeys {T : Type} (grouped : Grouped Text T) (start end_ : DateTime) (levels : List GroupByDate) :
    Grouped Text T :=
  let visited :=
    match finest levels with
    | some level => cursors level end_ start
    | none => if start ≤ end_ then [start] else []
  visited.foldl (fun grouped cursor => orInsert grouped (generateDateKey cursor levels)) grouped

section Filled

variable {T : Type} {grouped : Grouped Text T} {start end_ : DateTime} {levels : List GroupByDate}
  {level : GroupByDate}

theorem keys_fillMissingDateKeys (h : finest levels = some level) :
    (fillMissingDateKeys grouped start end_ levels).map Prod.fst =
      ((cursors level end_ start).map (generateDateKey · levels)).foldl addKey (grouped.map Prod.fst) := by
  rw [fillMissingDateKeys, h]
  simp only
  generalize cursors level end_ start = visited
  induction visited generalizing grouped with
  | nil => rfl
  | cons cursor visited ih =>
      rw [List.foldl_cons, ih, keys_orInsert]
      rfl

theorem total_fillMissingDateKeys {M : Type} [AddCommMonoid M] {value : List T → M} (hnil : value [] = 0) :
    total value (fillMissingDateKeys grouped start end_ levels) = total value grouped := by
  rw [fillMissingDateKeys]
  generalize (match finest levels with
    | some level => cursors level end_ start
    | none => if start ≤ end_ then [start] else []) = visited
  induction visited generalizing grouped with
  | nil => rfl
  | cons cursor visited ih => rw [List.foldl_cons, ih, total_orInsert hnil]

end Filled

/-- The loop over a period visits its cursors one after the other. -/
theorem cursors_eq {level : GroupByDate} {end_ : Int} {n : Nat} (f : Nat → Int)
    (hnext : ∀ i < n, nextCursor level (f i) = f (i + 1)) (hin : ∀ i < n, f i ≤ end_) (hout : end_ < f n) :
    cursors level end_ (f 0) = (List.range n).map f := by
  induction n generalizing f with
  | zero =>
      rw [cursors, dif_neg (Int.not_le.mpr hout)]
      rfl
  | succ n ih =>
      have hrest := ih (fun i => f (i + 1)) (fun i hi => hnext (i + 1) (by omega)) (fun i hi => hin (i + 1) (by omega))
        hout
      rw [cursors, dif_pos (hin 0 (by omega)), hnext 0 (by omega), hrest, List.range_succ_eq_map, List.map_cons,
        List.map_map]
      rfl

end Quantframe.Utils
