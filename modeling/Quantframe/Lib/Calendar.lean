import Mathlib.Algebra.Order.Ring.Int
import Mathlib.Tactic.Linarith

/-!
# The Gregorian calendar

A day is its distance from 1 January 1970. Its year, month and day of the month, and back.
-/

namespace Quantframe.Lib.Calendar

def isLeap (y : Int) : Bool := y % 4 = 0 && (y % 100 ≠ 0 || y % 400 = 0)

/-- The leap days before a year, from year 1 on. -/
def leapDays (y : Int) : Int := (y - 1) / 4 - (y - 1) / 100 + (y - 1) / 400

/-- 1 January of a year. -/
def newYear (y : Int) : Int := 365 * (y - 1970) + leapDays y - leapDays 1970

def leapDay (leap : Bool) : Int := if leap then 1 else 0

/-- The days of a year before a month; the 13th is where the next year starts. -/
def daysBefore (leap : Bool) (month : Int) : Int :=
  if month ≤ 2 then 31 * (month - 1) else (153 * (month - 3) + 2) / 5 + 59 + leapDay leap

example : (List.range 13).map (fun (i : Nat) => daysBefore false (i + 1)) =
    [0, 31, 59, 90, 120, 151, 181, 212, 243, 273, 304, 334, 365] := by decide

/-- The day with a date. -/
def ofDate (y m d : Int) : Int := newYear y + daysBefore (isLeap y) m + (d - 1)

/-- The year of a day: 400 years have 146097 days. -/
def yearOf (day : Int) : Int :=
  let y := (day + 719162) * 400 / 146097 + 1
  if day < newYear y then y - 1 else if newYear (y + 1) ≤ day then y + 1 else y

def dayOfYear (day : Int) : Int := day - newYear (yearOf day)

/-- The month of a day of the year, counted from 0. -/
def monthIn (leap : Bool) (n : Int) : Int :=
  let march := 59 + leapDay leap
  if n < march then n / 31 + 1 else (5 * (n - march) + 2) / 153 + 3

def monthOf (day : Int) : Int := monthIn (isLeap (yearOf day)) (dayOfYear day)

def dayOfMonth (day : Int) : Int := dayOfYear day - daysBefore (isLeap (yearOf day)) (monthOf day) + 1

theorem leapDay_bounds (leap : Bool) : 0 ≤ leapDay leap ∧ leapDay leap ≤ 1 := by
  cases leap <;> decide

theorem daysBefore_year (leap : Bool) : daysBefore leap 13 = 365 + leapDay leap := by
  cases leap <;> rfl

/-! ### Years -/

section Years

variable {y day : Int}

theorem newYear_succ (y : Int) : newYear (y + 1) = newYear y + 365 + leapDay (isLeap y) := by
  simp only [newYear, leapDays, leapDay, isLeap, Bool.and_eq_true, Bool.or_eq_true, decide_eq_true_eq, decide_not,
    Bool.not_eq_true', decide_eq_false_iff_not]
  split <;> omega

theorem newYear_lt {y' : Int} (h : y < y') : newYear y + 365 ≤ newYear y' := by
  simp only [newYear, leapDays]
  omega

theorem newYear_mono {y' : Int} (h : y ≤ y') : newYear y ≤ newYear y' := by
  simp only [newYear, leapDays]
  omega

/-- The estimate of `yearOf` is off by at most one year. -/
theorem newYear_estimate (day : Int) :
    newYear ((day + 719162) * 400 / 146097 + 1 - 1) ≤ day ∧
      day < newYear ((day + 719162) * 400 / 146097 + 1 + 1 + 1) := by
  simp only [newYear, leapDays]
  constructor
  · omega
  · omega

theorem yearOf_spec (day : Int) : newYear (yearOf day) ≤ day ∧ day < newYear (yearOf day + 1) := by
  obtain ⟨hlow, hhigh⟩ := newYear_estimate day
  by_cases hbefore : day < newYear ((day + 719162) * 400 / 146097 + 1)
  · rw [yearOf, if_pos hbefore, Int.sub_add_cancel]
    exact ⟨hlow, hbefore⟩
  · by_cases hafter : newYear ((day + 719162) * 400 / 146097 + 1 + 1) ≤ day
    · rw [yearOf, if_neg hbefore, if_pos hafter]
      exact ⟨hafter, hhigh⟩
    · rw [yearOf, if_neg hbefore, if_neg hafter]
      exact ⟨Int.not_lt.mp hbefore, Int.not_le.mp hafter⟩

/-- A day lies in one year. -/
theorem yearOf_eq_iff : yearOf day = y ↔ newYear y ≤ day ∧ day < newYear (y + 1) := by
  obtain ⟨hlow, hhigh⟩ := yearOf_spec day
  constructor
  · rintro rfl
    exact ⟨hlow, hhigh⟩
  · rintro ⟨hstart, hend⟩
    by_contra hne
    rcases Int.lt_or_gt_of_ne hne with hless | hmore
    · have hyears := newYear_mono (show yearOf day + 1 ≤ y from hless)
      omega
    · have hyears := newYear_mono (show y + 1 ≤ yearOf day from hmore)
      omega

theorem yearOf_mono {day' : Int} (h : day ≤ day') : yearOf day ≤ yearOf day' := by
  by_contra hless
  have hyears := newYear_mono (show yearOf day' + 1 ≤ yearOf day by omega)
  have hbefore := (yearOf_spec day').2
  have hafter := (yearOf_spec day).1
  omega

theorem yearOf_newYear (y : Int) : yearOf (newYear y) = y := by
  rw [yearOf_eq_iff]
  have hyear := newYear_lt (Int.lt_succ y)
  constructor
  · exact le_refl _
  · omega

theorem yearOf_yearEnd (y : Int) : yearOf (newYear (y + 1) - 1) = y := by
  rw [yearOf_eq_iff]
  have hyear := newYear_lt (Int.lt_succ y)
  constructor
  · omega
  · omega

/-- The next day is of the same year or starts the next one. -/
theorem yearOf_succ (day : Int) : yearOf (day + 1) = yearOf day ∨ yearOf (day + 1) = yearOf day + 1 := by
  obtain ⟨hlow, hhigh⟩ := yearOf_spec day
  have hyear := newYear_lt (Int.lt_succ (yearOf day + 1))
  by_cases hlast : day + 1 < newYear (yearOf day + 1)
  · refine .inl (yearOf_eq_iff.mpr ⟨?_, hlast⟩)
    omega
  · refine .inr (yearOf_eq_iff.mpr ⟨Int.not_lt.mp hlast, ?_⟩)
    omega

theorem dayOfYear_bounds (day : Int) : 0 ≤ dayOfYear day ∧ dayOfYear day < daysBefore (isLeap (yearOf day)) 13 := by
  obtain ⟨hlow, hhigh⟩ := yearOf_spec day
  rw [newYear_succ] at hhigh
  rw [dayOfYear, daysBefore_year]
  constructor
  · omega
  · omega

end Years

/-! ### Months -/

section Months

variable {leap : Bool} {n m : Int}

theorem daysBefore_mono {m' : Int} (hm : 1 ≤ m) (h : m ≤ m') : daysBefore leap m ≤ daysBefore leap m' := by
  have hday := leapDay_bounds leap
  simp only [daysBefore]
  split <;> split <;> omega

theorem monthIn_spec (hlow : 0 ≤ n) (hhigh : n < daysBefore leap 13) :
    1 ≤ monthIn leap n ∧ monthIn leap n ≤ 12 ∧ daysBefore leap (monthIn leap n) ≤ n ∧
      n < daysBefore leap (monthIn leap n + 1) := by
  rw [daysBefore_year] at hhigh
  have hday := leapDay_bounds leap
  by_cases hmarch : n < 59 + leapDay leap
  · have hmonth : monthIn leap n = n / 31 + 1 := if_pos hmarch
    rw [hmonth, daysBefore, daysBefore, if_pos (by omega)]
    split
    · omega
    · omega
  · have hmonth : monthIn leap n = (5 * (n - (59 + leapDay leap)) + 2) / 153 + 3 := if_neg hmarch
    rw [hmonth, daysBefore, daysBefore, if_neg (by omega), if_neg (by omega)]
    omega

/-- A day of the year lies in one month. -/
theorem monthIn_eq (hm : 1 ≤ m) (hm' : m ≤ 12) (hlow : daysBefore leap m ≤ n) (hhigh : n < daysBefore leap (m + 1)) :
    monthIn leap n = m := by
  have hstart : 0 ≤ n := by
    have hfirst : 0 ≤ daysBefore leap m := daysBefore_mono (le_refl 1) hm
    omega
  have hend : n < daysBefore leap 13 := by
    have hlast : daysBefore leap (m + 1) ≤ daysBefore leap 13 := daysBefore_mono (by omega) (by omega)
    omega
  obtain ⟨hfirst, hlast, hafter, hbefore⟩ := monthIn_spec hstart hend
  by_contra hne
  rcases Int.lt_or_gt_of_ne hne with hless | hmore
  · have hdays : daysBefore leap (monthIn leap n + 1) ≤ daysBefore leap m := daysBefore_mono (by omega) hless
    omega
  · have hdays : daysBefore leap (m + 1) ≤ daysBefore leap (monthIn leap n) := daysBefore_mono (by omega) hmore
    omega

end Months

/-! ### Dates -/

section Dates

variable {y m d day : Int}

theorem monthOf_spec (day : Int) : 1 ≤ monthOf day ∧ monthOf day ≤ 12 ∧ 1 ≤ dayOfMonth day ∧
    dayOfYear day < daysBefore (isLeap (yearOf day)) (monthOf day + 1) := by
  obtain ⟨hlow, hhigh⟩ := dayOfYear_bounds day
  obtain ⟨hfirst, hlast, hafter, hbefore⟩ := monthIn_spec hlow hhigh
  refine ⟨hfirst, hlast, ?_, hbefore⟩
  rw [dayOfMonth, monthOf]
  omega

/-- The date of a day names it. -/
theorem ofDate_eq (day : Int) : ofDate (yearOf day) (monthOf day) (dayOfMonth day) = day := by
  rw [ofDate, dayOfMonth, dayOfYear]
  omega

/-- A date that its month has. -/
theorem date_ofDate (hm : 1 ≤ m) (hm' : m ≤ 12) (hd : 1 ≤ d)
    (hd' : daysBefore (isLeap y) m + d ≤ daysBefore (isLeap y) (m + 1)) :
    yearOf (ofDate y m d) = y ∧ monthOf (ofDate y m d) = m ∧ dayOfMonth (ofDate y m d) = d := by
  have hnonneg : 0 ≤ daysBefore (isLeap y) m := daysBefore_mono (le_refl 1) hm
  have hyear : yearOf (ofDate y m d) = y := by
    rw [yearOf_eq_iff, newYear_succ, ofDate]
    have hlast : daysBefore (isLeap y) (m + 1) ≤ 365 + leapDay (isLeap y) := by
      rw [← daysBefore_year]
      exact daysBefore_mono (by omega) (by omega)
    constructor
    · omega
    · omega
  have hdays : dayOfYear (ofDate y m d) = daysBefore (isLeap y) m + (d - 1) := by
    rw [dayOfYear, hyear, ofDate]
    omega
  have hmonth : monthOf (ofDate y m d) = m := by
    rw [monthOf, hyear, hdays]
    exact monthIn_eq hm hm' (by omega) (by omega)
  refine ⟨hyear, hmonth, ?_⟩
  rw [dayOfMonth, hyear, hmonth, hdays]
  omega

theorem ofDate_newYear (y : Int) : ofDate y 1 1 = newYear y := by
  rw [ofDate]
  change newYear y + 0 + 0 = newYear y
  omega

/-- The first day of a 13th month. -/
theorem ofDate_nextYear (y : Int) : ofDate y 13 1 = newYear (y + 1) := by
  rw [ofDate, daysBefore_year, newYear_succ]
  omega

theorem ofDate_yearEnd (y : Int) : ofDate y 12 31 = newYear (y + 1) - 1 := by
  have hlast : ofDate y 12 31 + 1 = ofDate y 13 1 := by
    simp only [ofDate, daysBefore]
    omega
  rw [← ofDate_nextYear, ← hlast]
  omega

theorem lt_nextMonth (day : Int) : day < ofDate (yearOf day) (monthOf day + 1) 1 := by
  have hbefore := (monthOf_spec day).2.2.2
  rw [dayOfYear] at hbefore
  rw [ofDate]
  omega

/-- A month has a first day. -/
theorem date_firstOfMonth (hm : 1 ≤ m) (hm' : m ≤ 12) :
    yearOf (ofDate y m 1) = y ∧ monthOf (ofDate y m 1) = m ∧ dayOfMonth (ofDate y m 1) = 1 := by
  refine date_ofDate hm hm' (le_refl 1) ?_
  have hday := leapDay_bounds (isLeap y)
  simp only [daysBefore]
  split <;> split <;> omega

/-- Days in order have dates in order. -/
theorem date_lt {day' : Int} (h : day < day') :
    yearOf day < yearOf day' ∨ (yearOf day = yearOf day' ∧ (monthOf day < monthOf day' ∨
      (monthOf day = monthOf day' ∧ dayOfMonth day < dayOfMonth day'))) := by
  rcases Int.lt_or_eq_of_le (yearOf_mono (le_of_lt h)) with hless | hyear
  · exact .inl hless
  · refine .inr ⟨hyear, ?_⟩
    obtain ⟨hlow, hhigh⟩ := dayOfYear_bounds day
    obtain ⟨hfirst', -, -, hbefore'⟩ := monthOf_spec day'
    have hdays : dayOfYear day < dayOfYear day' := by
      rw [dayOfYear, dayOfYear, hyear]
      omega
    have hafter : daysBefore (isLeap (yearOf day)) (monthOf day) ≤ dayOfYear day := (monthIn_spec hlow hhigh).2.2.1
    have hmonth : monthOf day ≤ monthOf day' := by
      by_contra hmore
      have hstart : daysBefore (isLeap (yearOf day)) (monthOf day' + 1) ≤
          daysBefore (isLeap (yearOf day)) (monthOf day) := daysBefore_mono (by omega) (by omega)
      rw [← hyear] at hbefore'
      omega
    rcases Int.lt_or_eq_of_le hmonth with hless | heq
    · exact .inl hless
    · refine .inr ⟨heq, ?_⟩
      rw [dayOfMonth, dayOfMonth, heq, hyear]
      omega

end Dates

/-! ### A year of 365 days -/

section LeapYearEnd

variable {day : Int}

/-- 31 December of a leap year. -/
def leapYearEnd (day : Int) : Bool := isLeap (yearOf day) && monthOf day = 12 && dayOfMonth day = 31

theorem leapYearEnd_iff : leapYearEnd day = true ↔ 365 ≤ dayOfYear day := by
  obtain ⟨hlow, hhigh⟩ := dayOfYear_bounds day
  rw [daysBefore_year] at hhigh
  simp only [leapYearEnd, Bool.and_eq_true, decide_eq_true_eq]
  constructor
  · rintro ⟨⟨hleap, hmonth⟩, hday⟩
    have hdays : daysBefore true 12 = 335 := by decide
    rw [dayOfMonth, hmonth, hleap, hdays] at hday
    omega
  · intro hlate
    have hleap : isLeap (yearOf day) = true := by
      by_contra hcommon
      rw [Bool.eq_false_of_not_eq_true hcommon, leapDay, if_neg (by decide)] at hhigh
      omega
    have hlast : dayOfYear day = 365 := by
      have hday := (leapDay_bounds (isLeap (yearOf day))).2
      omega
    have hmonth : monthOf day = 12 := by
      rw [monthOf, hleap, hlast]
      decide
    refine ⟨⟨hleap, hmonth⟩, ?_⟩
    rw [dayOfMonth, hmonth, hleap, hlast]
    decide

/-- 365 days before a day is its last year, but for the 366th day of a year. -/
theorem yearOf_sub_of_not_leapYearEnd (h : leapYearEnd day = false) : yearOf (day - 365) = yearOf day - 1 := by
  obtain ⟨hlow, -⟩ := yearOf_spec day
  have hearly : dayOfYear day < 365 := by
    by_contra hlate
    rw [leapYearEnd_iff.mpr (Int.not_lt.mp hlate)] at h
    cases h
  rw [dayOfYear] at hearly
  have hyears := newYear_lt (show yearOf day - 1 < yearOf day by omega)
  rw [yearOf_eq_iff, Int.sub_add_cancel]
  constructor
  · omega
  · omega

theorem yearOf_sub_of_leapYearEnd (h : leapYearEnd day = true) : yearOf (day - 365) = yearOf day := by
  obtain ⟨hlow, hhigh⟩ := yearOf_spec day
  have hlate := leapYearEnd_iff.mp h
  rw [dayOfYear] at hlate
  rw [yearOf_eq_iff]
  constructor
  · omega
  · omega

end LeapYearEnd

end Quantframe.Lib.Calendar
