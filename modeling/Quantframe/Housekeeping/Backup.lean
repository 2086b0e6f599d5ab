import Quantframe.Lib.Retention
import Quantframe.Lib.Sorting
import Quantframe.Trades.Types

/-!
# Daily database backups

A dated file is written and verified before it gets its name, and then the files that the retention does not
keep are deleted. Each run decides on what the runs before it left.
-/

namespace Quantframe.Housekeeping

open Lib
open Trades (Error)

def keepDaily : Nat := 7

def keepWeekly : Nat := 4

/-- How a date is written and read, with `%Y-%m-%d`. A date counts the days since 1970-01-01. -/
structure DateFormat where
  format : Int → String
  parse : String → Option Int

/-- What is written is read back. -/
def DateFormat.Reads (dates : DateFormat) : Prop := ∀ date, dates.parse (dates.format date) = some date

/-- 1970-01-04 was a Sunday. -/
def Sunday (date : Int) : Prop := (date + 4) % 7 = 0

instance : DecidablePred Sunday := fun _ => inferInstanceAs (Decidable (_ = _))

section Files

variable (dates : DateFormat)

def fileName (date : Int) : String := "quantframe-" ++ dates.format date ++ ".sqlite"

/-- The date in a backup file name; `none` for anything else in the directory. -/
def parseDate (name : String) : Option Int := do
  let rest ← "quantframe-".toList.isPrefixOf? name.toList
  let middle ← ".sqlite".toList.isSuffixOf? rest
  dates.parse (String.ofList middle)

end Files

/-- The dates beyond the Sundays that are kept, when so many were. -/
def beyondSundays : Nat → List Int → List Int
  | _, [] => []
  | sundaysKept, date :: rest =>
      if Sunday date ∧ sundaysKept < keepWeekly then beyondSundays (sundaysKept + 1) rest
      else date :: beyondSundays sundaysKept rest

/-- Dates to delete: all but the `keepDaily` newest and the `keepWeekly` newest Sundays among the rest. -/
def toDelete (dates : List Int) : List Int :=
  let sorted := distinct (fun a b => decide (b ≤ a)) dates
  beyondSundays 0 (sorted.drop (min sorted.length keepDaily))

/-! ### Runs -/

/-- What a run finds: whether the copy is made and verified, whether the directory can be listed, and which files
can be deleted. -/
structure Attempt where
  today : Int
  copied : Except Error Unit
  listed : Except Error Unit
  removed : String → Except Error Unit

section Runs

variable (dates : DateFormat)

/-- Deletes the doomed files in turn; a failure leaves the rest. -/
def removeDoomed (removed : String → Except Error Unit) (doomed : List Int) :
    List (Int × String) → List String → Except Error Unit × List String
  | [], dir => (.ok (), dir)
  | (date, path) :: rest, dir =>
      if date ∈ doomed then
        match removed path with
        | .ok () => removeDoomed removed doomed rest (dir.filter fun name => decide (name ≠ path))
        | .error e => (.error e, dir)
      else removeDoomed removed doomed rest dir

/-- Deletes dated backup files the retention rule no longer keeps. Other files are left alone. -/
def prune (a : Attempt) (dir : List String) : Except Error Unit × List String :=
  match a.listed with
  | .error e => (.error e, dir)
  | .ok () =>
      let dated := dir.filterMap fun name => (parseDate dates name).map fun date => (date, name)
      removeDoomed a.removed (toDelete (dated.map Prod.fst)) dated dir

/-- The daily job: skip if today's file exists; else write it and prune. -/
def run (a : Attempt) (dir : List String) : Except Error (Option String) × List String :=
  let finalPath := fileName dates a.today
  if finalPath ∈ dir then (.ok none, dir)
  else
    match a.copied with
    | .error e => (.error e, dir)
    | .ok () =>
        let (pruned, dir) := prune dates a (dir ++ [finalPath])
        (pruned.map fun _ => some finalPath, dir)

/-- The directory after some runs. -/
def afterRuns (dir : List String) (attempts : List Attempt) : List String :=
  attempts.foldl (fun dir a => (run dates a dir).2) dir

/-- The date that a run writes. -/
def writes (a : Attempt) (dir : List String) : List Int :=
  if fileName dates a.today ∉ dir ∧ a.copied.isOk then [a.today] else []

/-- The dates whose files the runs wrote. -/
def writtenDates (dir : List String) : List Attempt → List Int
  | [] => []
  | a :: attempts => writes dates a dir ++ writtenDates (run dates a dir).2 attempts

/-- The dates of the backup files of a directory. -/
def datesIn (dir : List String) : List Int := dir.filterMap (parseDate dates)

end Runs

/-! ### What the retention decides -/

theorem mem_beyondSundays {l : List Int} (h : l.Pairwise fun a b => b < a) {k : Nat} {date : Int} :
    date ∈ beyondSundays k l ↔ date ∈ l ∧ date ∉ (l.filter fun d => decide (Sunday d)).take (keepWeekly - k) := by
  induction l generalizing k with
  | nil => simp [beyondSundays]
  | cons d l ih =>
      obtain ⟨hhead, hrest⟩ := List.pairwise_cons.mp h
      have hne : ∀ x ∈ l, x ≠ d := fun x hx => (hhead x hx).ne
      have hnot : ∀ n, d ∉ (l.filter fun x => decide (Sunday x)).take n := fun n hmem =>
        hne d (List.mem_filter.mp (List.mem_of_mem_take hmem)).1 rfl
      rw [beyondSundays]
      split
      · next hkept =>
          obtain ⟨n, hn⟩ : ∃ n, keepWeekly - k = n + 1 := ⟨keepWeekly - (k + 1), by omega⟩
          have hn' : keepWeekly - (k + 1) = n := by omega
          have hfilter : (d :: l).filter (fun x => decide (Sunday x)) = d :: l.filter fun x => decide (Sunday x) :=
            List.filter_cons_of_pos (decide_eq_true hkept.1)
          rw [ih hrest, hfilter, hn, hn', List.take_succ_cons, List.mem_cons, List.mem_cons, not_or]
          constructor
          · rintro ⟨hmem, htake⟩
            exact ⟨.inr hmem, hne date hmem, htake⟩
          · rintro ⟨hmem, hd, htake⟩
            exact ⟨hmem.resolve_left hd, htake⟩
      · next hgoes =>
          have htake : ((d :: l).filter fun x => decide (Sunday x)).take (keepWeekly - k) =
              (l.filter fun x => decide (Sunday x)).take (keepWeekly - k) := by
            by_cases hsunday : Sunday d
            · have hzero : keepWeekly - k = 0 :=
                Nat.sub_eq_zero_of_le (Nat.le_of_not_lt fun hlt => hgoes ⟨hsunday, hlt⟩)
              rw [hzero, List.take_zero, List.take_zero]
            · rw [List.filter_cons_of_neg (by simpa using hsunday)]
          rw [List.mem_cons, ih hrest, htake, List.mem_cons]
          constructor
          · rintro (rfl | ⟨hmem, hkeep⟩)
            · exact ⟨.inl rfl, hnot _⟩
            · exact ⟨.inr hmem, hkeep⟩
          · rintro ⟨rfl | hmem, hkeep⟩
            · exact .inl rfl
            · exact .inr ⟨hmem, hkeep⟩

theorem descending : Orders fun a b : Int => decide (b ≤ a) where
  trans a b c hab hbc := by
    rw [decide_eq_true_eq] at *
    exact hbc.trans hab
  total a b := by
    rw [Bool.or_eq_true, decide_eq_true_eq, decide_eq_true_eq]
    exact le_total b a
  antisymm a b hab hba := by
    rw [decide_eq_true_eq] at *
    exact le_antisymm hba hab

theorem newestFirst (dates : List Int) :
    (distinct (fun a b => decide (b ≤ a)) dates).Pairwise fun a b => b < a := by
  refine ((descending.pairwise_distinct dates).and (nodup_distinct _ dates)).imp fun h => ?_
  exact lt_of_le_of_ne (of_decide_eq_true h.1) (Ne.symm h.2)

/-- The dates that the retention keeps. -/
def kept (dates : Finset Int) : Finset Int := retained keepDaily keepWeekly Sunday dates

/-- The retention deletes what is neither among the newest nor among the newest Sundays beyond them. -/
theorem mem_toDelete {dates : List Int} {date : Int} :
    date ∈ toDelete dates ↔ date ∈ dates ∧ date ∉ kept dates.toFinset := by
  have hsorted := newestFirst dates
  have hsame : (distinct (fun a b => decide (b ≤ a)) dates).toFinset = dates.toFinset := by
    ext x
    rw [List.mem_toFinset, List.mem_toFinset, mem_distinct]
  rw [toDelete]
  generalize distinct (fun a b => decide (b ≤ a)) dates = sorted at hsorted hsame ⊢
  have hdrop : sorted.drop (min sorted.length keepDaily) = sorted.drop keepDaily := by
    rcases Nat.le_total sorted.length keepDaily with h | h
    · rw [Nat.min_eq_left h, List.drop_length, List.drop_eq_nil_of_le h]
    · rw [Nat.min_eq_right h]
  have hrest : (sorted.drop keepDaily).Pairwise fun a b => b < a := hsorted.drop
  have hsundays := toFinset_take (hrest.filter fun d => decide (Sunday d)) keepWeekly
  rw [List.toFinset_filter, toFinset_drop hsorted] at hsundays
  have hmem : date ∈ dates ↔ date ∈ sorted := by
    rw [← List.mem_toFinset, ← hsame, List.mem_toFinset]
  have hold : date ∈ sorted.drop keepDaily ↔ date ∈ sorted ∧ date ∉ top keepDaily dates.toFinset := by
    rw [← List.mem_toFinset, toFinset_drop hsorted, hsame, Finset.mem_sdiff, ← hsame, List.mem_toFinset]
  rw [hdrop, mem_beyondSundays hrest, Nat.sub_zero, hold, hmem, kept, retained, Finset.mem_union, not_or, and_assoc,
    ← List.mem_toFinset (l := List.take _ _), hsundays, hsame]
  simp only [decide_eq_true_eq]

/-! ### What a run leaves -/

section Runs

variable {dates : DateFormat} {a : Attempt} {dir : List String} {all : Finset Int}

theorem parseDate_fileName (hreads : dates.Reads) (date : Int) : parseDate dates (fileName dates date) = some date := by
  have hprefix : "quantframe-".toList.isPrefixOf? (fileName dates date).toList =
      some ((dates.format date).toList ++ ".sqlite".toList) := by
    rw [List.isPrefixOf?_eq_some_iff_append_eq, fileName, String.toList_append, String.toList_append, List.append_assoc]
  have hsuffix : ".sqlite".toList.isSuffixOf? ((dates.format date).toList ++ ".sqlite".toList) =
      some (dates.format date).toList := List.isSuffixOf?_eq_some_iff_append_eq.mpr rfl
  rw [parseDate, hprefix]
  simp only [Option.bind_eq_bind, Option.bind_some, hsuffix, String.ofList_toList]
  exact hreads date

theorem mem_datesIn {date : Int} : date ∈ datesIn dates dir ↔ ∃ name ∈ dir, parseDate dates name = some date :=
  List.mem_filterMap

/-- The files that are deleted are doomed, and all the doomed are when nothing fails. -/
theorem removeDoomed_spec (removed : String → Except Error Unit) (doomed : List Int) (dated : List (Int × String))
    (dir : List String) :
    ∃ gone : List String, (removeDoomed removed doomed dated dir).2 = dir.filter (fun name => decide (name ∉ gone)) ∧
      (∀ name ∈ gone, ∃ date ∈ doomed, (date, name) ∈ dated) ∧
      ((removeDoomed removed doomed dated dir).1 = .ok () →
        ∀ date name, (date, name) ∈ dated → date ∈ doomed → name ∈ gone) := by
  induction dated generalizing dir with
  | nil => exact ⟨[], by simp [removeDoomed], nofun, nofun⟩
  | cons file dated ih =>
      obtain ⟨date, path⟩ := file
      rw [removeDoomed]
      split
      · next hdoomed =>
          cases hremoved : removed path with
          | error e => exact ⟨[], by simp, nofun, nofun⟩
          | ok _ =>
              obtain ⟨gone, hdir, hgone, hall⟩ := ih (dir.filter fun name => decide (name ≠ path))
              refine ⟨path :: gone, ?_, ?_, ?_⟩
              · rw [hdir, List.filter_filter]
                refine List.filter_congr fun name _ => ?_
                simp only [List.mem_cons, not_or, Bool.decide_and, Bool.and_comm]
              · intro name hname
                rcases List.mem_cons.mp hname with rfl | hname
                · exact ⟨date, hdoomed, List.mem_cons_self⟩
                · obtain ⟨d, hd, hmem⟩ := hgone name hname
                  exact ⟨d, hd, List.mem_cons_of_mem _ hmem⟩
              · intro hok d name hmem hd
                rcases List.mem_cons.mp hmem with heq | hmem
                · cases heq
                  exact List.mem_cons_self
                · exact List.mem_cons_of_mem _ (hall hok d name hmem hd)
      · next hspared =>
          obtain ⟨gone, hdir, hgone, hall⟩ := ih dir
          refine ⟨gone, hdir, ?_, ?_⟩
          · intro name hname
            obtain ⟨d, hd, hmem⟩ := hgone name hname
            exact ⟨d, hd, List.mem_cons_of_mem _ hmem⟩
          · intro hok d name hmem hd
            rcases List.mem_cons.mp hmem with heq | hmem
            · cases heq
              exact absurd hd hspared
            · exact hall hok d name hmem hd

/-- The dates of the files of a directory. -/
def dateSet (dates : DateFormat) (dir : List String) : Finset Int := (datesIn dates dir).toFinset

theorem mem_dateSet {date : Int} : date ∈ dateSet dates dir ↔ ∃ name ∈ dir, parseDate dates name = some date := by
  rw [dateSet, List.mem_toFinset, mem_datesIn]

theorem kept_subset (s : Finset Int) : kept s ⊆ s := retained_subset

/-- Pruning leaves what is kept, and nothing else when it succeeds. -/
theorem prune_spec (a : Attempt) (dir : List String) :
    kept (dateSet dates dir) ⊆ dateSet dates (prune dates a dir).2 ∧
      dateSet dates (prune dates a dir).2 ⊆ dateSet dates dir ∧
      ((prune dates a dir).1 = .ok () → dateSet dates (prune dates a dir).2 = kept (dateSet dates dir)) := by
  rw [prune]
  cases a.listed with
  | error e => exact ⟨kept_subset _, Finset.Subset.rfl, nofun⟩
  | ok _ =>
      dsimp only
      generalize hdated : dir.filterMap (fun name => (parseDate dates name).map fun date => (date, name)) = dated
      have hdates : dated.map Prod.fst = datesIn dates dir := by
        rw [← hdated, List.map_filterMap, datesIn]
        refine List.filterMap_congr fun name _ => ?_
        cases parseDate dates name with
        | none => rfl
        | some date => rfl
      have hmem {date : Int} {name : String} :
          (date, name) ∈ dated ↔ name ∈ dir ∧ parseDate dates name = some date := by
        rw [← hdated, List.mem_filterMap]
        constructor
        · rintro ⟨n, hn, h⟩
          obtain ⟨d, hd, heq⟩ := Option.map_eq_some_iff.mp h
          cases heq
          exact ⟨hn, hd⟩
        · rintro ⟨hn, h⟩
          exact ⟨name, hn, by rw [h]; rfl⟩
      have hdoomed {date : Int} :
          date ∈ toDelete (datesIn dates dir) ↔ date ∈ dateSet dates dir ∧ date ∉ kept (dateSet dates dir) := by
        rw [mem_toDelete, dateSet, List.mem_toFinset]
      rw [hdates]
      obtain ⟨gone, hdir, hgone, hall⟩ := removeDoomed_spec a.removed (toDelete (datesIn dates dir)) dated dir
      rw [hdir]
      have hkeeps : kept (dateSet dates dir) ⊆ dateSet dates (dir.filter fun name => decide (name ∉ gone)) := by
        intro date hdate
        obtain ⟨name, hname, hparse⟩ := mem_dateSet.mp (kept_subset _ hdate)
        refine mem_dateSet.mpr ⟨name, List.mem_filter.mpr ⟨hname, decide_eq_true fun hmemgone => ?_⟩, hparse⟩
        obtain ⟨d, hd, hfile⟩ := hgone name hmemgone
        cases hparse.symm.trans (hmem.mp hfile).2
        exact (hdoomed.mp hd).2 hdate
      refine ⟨hkeeps, ?_, fun hok => Finset.Subset.antisymm ?_ hkeeps⟩
      · intro date hdate
        obtain ⟨name, hname, hparse⟩ := mem_dateSet.mp hdate
        exact mem_dateSet.mpr ⟨name, (List.mem_filter.mp hname).1, hparse⟩
      · intro date hdate
        obtain ⟨name, hname, hparse⟩ := mem_dateSet.mp hdate
        obtain ⟨hin, hnot⟩ := List.mem_filter.mp hname
        by_contra hkept
        have hd := hdoomed.mpr ⟨mem_dateSet.mpr ⟨name, hin, hparse⟩, hkept⟩
        exact of_decide_eq_true hnot (hall hok date name (hmem.mpr ⟨hin, hparse⟩) hd)

theorem dateSet_written (hreads : dates.Reads) (dir : List String) (date : Int) :
    dateSet dates (dir ++ [fileName dates date]) = dateSet dates dir ∪ {date} := by
  ext x
  rw [Finset.mem_union, mem_dateSet, mem_dateSet, Finset.mem_singleton]
  constructor
  · rintro ⟨name, hname, hparse⟩
    rcases List.mem_append.mp hname with hold | hnew
    · exact .inl ⟨name, hold, hparse⟩
    · rw [List.mem_singleton.mp hnew, parseDate_fileName hreads] at hparse
      exact .inr (Option.some.inj hparse).symm
  · rintro (⟨name, hold, hparse⟩ | rfl)
    · exact ⟨name, List.mem_append_left _ hold, hparse⟩
    · exact ⟨_, List.mem_append_right _ List.mem_cons_self, parseDate_fileName hreads x⟩

/-- The directory holds what is kept of the whole history, and only files of the history. -/
def Holds (dates : DateFormat) (history : Finset Int) (dir : List String) : Prop :=
  kept history ⊆ dateSet dates dir ∧ dateSet dates dir ⊆ history

theorem removeDoomed_ok {removed : String → Except Error Unit} (h : ∀ path, removed path = .ok ()) (doomed : List Int)
    (dated : List (Int × String)) (dir : List String) : (removeDoomed removed doomed dated dir).1 = .ok () := by
  induction dated generalizing dir with
  | nil => rfl
  | cons file dated ih =>
      rw [removeDoomed, h]
      split
      · exact ih _
      · exact ih _

/-- A run with no file for the day and no failure writes it. -/
theorem run_writes (hfile : fileName dates a.today ∉ dir) (hcopied : a.copied = .ok ()) (hlisted : a.listed = .ok ())
    (hremoved : ∀ path, a.removed path = .ok ()) :
    (run dates a dir).1 = .ok (some (fileName dates a.today)) := by
  have hpruned : (prune dates a (dir ++ [fileName dates a.today])).1 = .ok () := by
    rw [prune, hlisted]
    exact removeDoomed_ok hremoved _ _ _
  rw [run, if_neg hfile, hcopied]
  dsimp only
  rw [hpruned]
  rfl

/-- One run holds what is kept of the longer history; one that writes and prunes holds nothing else. -/
theorem Holds.run (hreads : dates.Reads) (h : Holds dates all dir) :
    Holds dates (all ∪ (writes dates a dir).toFinset) (run dates a dir).2 ∧
      ∀ path, (run dates a dir).1 = .ok (some path) →
        dateSet dates (run dates a dir).2 = kept (all ∪ (writes dates a dir).toFinset) := by
  rw [Housekeeping.run, writes]
  by_cases hfile : fileName dates a.today ∈ dir
  · simpa [hfile] using h
  · cases hcopied : a.copied with
    | error e => simpa [hfile, hcopied, Except.isOk, Except.toBool] using h
    | ok _ =>
        obtain ⟨hkeeps, hsub, hexact⟩ := @prune_spec dates a (dir ++ [fileName dates a.today])
        rw [dateSet_written hreads] at hkeeps hsub hexact
        have hkept : kept (dateSet dates dir ∪ {a.today}) = kept (all ∪ {a.today}) := retained_union h.1 h.2 {a.today}
        rw [hkept] at hkeeps hexact
        have hwrites : (if fileName dates a.today ∉ dir ∧ (Except.ok () : Except Error Unit).isOk = true then
            [a.today] else []) = [a.today] := if_pos ⟨hfile, rfl⟩
        rw [hwrites, if_neg hfile]
        refine ⟨⟨hkeeps, hsub.trans (Finset.union_subset_union_left h.2)⟩, fun path hpath => hexact ?_⟩
        dsimp only at hpath
        cases hpruned : (prune dates a (dir ++ [fileName dates a.today])).1 with
        | ok _ => rfl
        | error e =>
            rw [hpruned] at hpath
            cases hpath

theorem writtenDates_append (dir : List String) (attempts later : List Attempt) :
    writtenDates dates dir (attempts ++ later) =
      writtenDates dates dir attempts ++ writtenDates dates (afterRuns dates dir attempts) later := by
  induction attempts generalizing dir with
  | nil => rfl
  | cons a attempts ih =>
      rw [List.cons_append, writtenDates, writtenDates, ih, List.append_assoc]
      rfl

/-- Any runs hold what is kept of the initial and the written dates. -/
theorem Holds.afterRuns (hreads : dates.Reads) (h : Holds dates all dir) (attempts : List Attempt) :
    Holds dates (all ∪ (writtenDates dates dir attempts).toFinset) (afterRuns dates dir attempts) := by
  induction attempts generalizing all dir with
  | nil => simpa [Housekeeping.afterRuns, writtenDates] using h
  | cons a attempts ih =>
      have hrest := ih (h.run (a := a) hreads).1
      rw [writtenDates, List.toFinset_append, ← Finset.union_assoc]
      exact hrest

end Runs

/-- Deleting step by step keeps what deciding once over the whole history would: after a run that wrote a file, the
directory holds the initial and the written dates but those that `toDelete` selects from all of them. -/
theorem retention_order_independent (dates : DateFormat) (hreads : dates.Reads) (dir : List String)
    (attempts : List Attempt) (a : Attempt) {path : String}
    (hrun : (run dates a (afterRuns dates dir attempts)).1 = .ok (some path)) :
    let all := datesIn dates dir ++ writtenDates dates dir (attempts ++ [a])
    let left := datesIn dates (run dates a (afterRuns dates dir attempts)).2
    (∀ date, date ∈ left ↔ date ∈ all ∧ date ∉ toDelete all) ∧
      left.toFinset = retained keepDaily keepWeekly Sunday all.toFinset := by
  intro all left
  have hinitial : Holds dates (dateSet dates dir) dir := ⟨kept_subset _, Finset.Subset.rfl⟩
  have hexact : left.toFinset = kept all.toFinset := by
    have hlast := ((hinitial.afterRuns hreads attempts).run (a := a) hreads).2 path hrun
    have hall : all.toFinset = dateSet dates dir ∪ (writtenDates dates dir attempts).toFinset ∪
        (writes dates a (afterRuns dates dir attempts)).toFinset := by
      rw [Finset.union_assoc, ← List.toFinset_append, dateSet, ← List.toFinset_append]
      simp only [all, writtenDates_append, writtenDates, List.append_nil]
    rw [hall]
    exact hlast
  refine ⟨fun date => ?_, hexact⟩
  have hmem : date ∈ left ↔ date ∈ kept all.toFinset := by rw [← hexact, List.mem_toFinset]
  rw [hmem, mem_toDelete]
  constructor
  · intro h
    exact ⟨List.mem_toFinset.mp (kept_subset _ h), fun hnot => hnot.2 h⟩
  · rintro ⟨hall, hkeeps⟩
    by_contra h
    exact hkeeps ⟨hall, h⟩

/-! ### September 2026 -/

def september (day : Nat) : String :=
  "2026-09-" ++ String.ofList [Nat.digitChar (day / 10), Nat.digitChar (day % 10)]

/-- Spells the days of September 2026 as the calendar does, and the others by so many signs. -/
def septemberDates : DateFormat where
  format date :=
    if 20697 ≤ date ∧ date ≤ 20726 then september (date - 20696).toNat
    else String.ofList (List.replicate date.natAbs (if 0 ≤ date then '+' else '-'))
  parse text :=
    match (List.range' 1 30).find? fun day => decide (september day = text) with
    | some day => some (20696 + day)
    | none =>
      match text.toList with
      | '-' :: rest => some (-(rest.length + 1))
      | chars => some chars.length

theorem find?_september : ∀ day ∈ List.range' 1 30,
    (List.range' 1 30).find? (fun d => decide (september d = september day)) = some day := by decide +kernel

theorem mem_september : ∀ day ∈ List.range' 1 30, '2' ∈ (september day).toList := by decide +kernel

theorem signs_ne {n : Nat} {c : Char} {text : String} (h : '2' ∈ text.toList) (hc : c ≠ '2') :
    text ≠ String.ofList (List.replicate n c) := by
  intro htext
  rw [htext, String.toList_ofList] at h
  exact hc (List.eq_of_mem_replicate h).symm

theorem septemberDates_reads : septemberDates.Reads := by
  intro date
  by_cases h : 20697 ≤ date ∧ date ≤ 20726
  · have hday : (date - 20696).toNat ∈ List.range' 1 30 := by
      rw [List.mem_range'_1]
      omega
    simp only [septemberDates, if_pos h, find?_september _ hday]
    congr 1
    omega
  · have hsign : (if 0 ≤ date then '+' else '-') ≠ '2' := by split <;> decide
    have hnone : (List.range' 1 30).find? (fun day => decide (september day =
        String.ofList (List.replicate date.natAbs (if 0 ≤ date then '+' else '-')))) = none := by
      rw [List.find?_eq_none]
      intro day hday
      rw [decide_eq_true_eq]
      exact signs_ne (mem_september day hday) hsign
    simp only [septemberDates, if_neg h, hnone, String.toList_ofList]
    rcases lt_or_ge date 0 with hneg | hpos
    · obtain ⟨n, hn⟩ : ∃ n : Nat, date = -(n + 1 : Int) := ⟨(-date - 1).toNat, by omega⟩
      have habs : date.natAbs = n + 1 := by omega
      rw [if_neg (not_le.mpr hneg), habs, List.replicate_succ]
      simp [hn]
    · rw [if_pos hpos]
      cases hn : date.natAbs with
      | zero => simp [Int.natAbs_eq_zero.mp hn]
      | succ n =>
          rw [List.replicate_succ]
          simp
          omega

def septemberFiles (days : List Nat) : List String := days.map fun day => "quantframe-" ++ september day ++ ".sqlite"

def septemberRun (day : Nat) : Attempt := ⟨20696 + day, .ok (), .ok (), fun _ => .ok ()⟩

/-- Of ten files the runs of two days leave the seven newest and the Sunday before them. -/
theorem retention_order_independent_september :
    (datesIn septemberDates (run septemberDates (septemberRun 16)
      (afterRuns septemberDates (septemberFiles [5, 6, 9, 10, 11, 12, 13, 14]) [septemberRun 15])).2).toFinset =
        {20702, 20706, 20707, 20708, 20709, 20710, 20711, 20712} := by
  have hdates : dateSet septemberDates (septemberFiles [5, 6, 9, 10, 11, 12, 13, 14]) =
      {20701, 20702, 20705, 20706, 20707, 20708, 20709, 20710} := by
    decide +kernel
  have hfifteenth : writes septemberDates (septemberRun 15) (septemberFiles [5, 6, 9, 10, 11, 12, 13, 14]) =
      [20711] := by
    decide +kernel
  have hfile : fileName septemberDates (septemberRun 16).today ∉
      afterRuns septemberDates (septemberFiles [5, 6, 9, 10, 11, 12, 13, 14]) [septemberRun 15] := by
    intro hin
    have hinitial : Holds septemberDates (dateSet septemberDates (septemberFiles [5, 6, 9, 10, 11, 12, 13, 14]))
        (septemberFiles [5, 6, 9, 10, 11, 12, 13, 14]) := ⟨kept_subset _, Finset.Subset.rfl⟩
    have hleft := (hinitial.run (a := septemberRun 15) septemberDates_reads).1.2
      (mem_dateSet.mpr ⟨_, hin, parseDate_fileName septemberDates_reads _⟩)
    rw [hdates, hfifteenth] at hleft
    exact absurd hleft (by decide +kernel)
  have hall := (retention_order_independent septemberDates septemberDates_reads
    (septemberFiles [5, 6, 9, 10, 11, 12, 13, 14]) [septemberRun 15] (septemberRun 16)
    (run_writes hfile rfl rfl fun _ => rfl)).2
  have hsixteenth : writes septemberDates (septemberRun 16)
      (run septemberDates (septemberRun 15) (septemberFiles [5, 6, 9, 10, 11, 12, 13, 14])).2 = [20712] :=
    if_pos ⟨hfile, rfl⟩
  have hwritten : writtenDates septemberDates (septemberFiles [5, 6, 9, 10, 11, 12, 13, 14])
      ([septemberRun 15] ++ [septemberRun 16]) = [20711, 20712] := by
    rw [List.singleton_append, writtenDates, writtenDates, writtenDates, hfifteenth, hsixteenth]
    rfl
  rw [hall, List.toFinset_append, ← dateSet, hdates, hwritten]
  decide +kernel

end Quantframe.Housekeeping
