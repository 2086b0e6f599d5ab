import Quantframe.Utils.Grouping

/-!
# The keys of dates

Which dates have one key, and in which order the keys are as texts.
-/

namespace Quantframe.Utils

open Lib Lib.Calendar
open LogParser (Text)

def hourKey (hour : Int) : Text := padded 2 hour ++ ":00".toList

def monthKey (year month : Int) : Text := padded 4 year ++ '-' :: padded 2 month

def dayKey (day : Int) : Text :=
  padded 4 (yearOf day) ++ '-' :: (padded 2 (monthOf day) ++ '-' :: padded 2 (dayOfMonth day))

theorem generateDateKey_hour (dt : Int) : generateDateKey dt [.hour] = hourKey (hourOf dt) := by
  simp [generateDateKey, joinParts, hourKey]

theorem generateDateKey_month (dt : Int) :
    generateDateKey dt [.year, .month] = monthKey (yearOf (dayNumber dt)) (monthOf (dayNumber dt)) := by
  simp [generateDateKey, joinParts, monthKey]

theorem generateDateKey_day (dt : Int) : generateDateKey dt [.year, .month, .day] = dayKey (dayNumber dt) := by
  simp [generateDateKey, joinParts, dayKey]

/-! ### Padded numbers -/

section Padded

variable {width : Nat} {m n : Int}

theorem padded_natCast (width n : Nat) : padded width n = (Nat.toDigits 10 n).leftpad width '0' := by
  rw [padded, if_neg (by omega), Int.natAbs_natCast]

theorem padded_neg (h : n < 0) : padded width n = '-' :: (Nat.toDigits 10 n.natAbs).leftpad (width - 1) '0' :=
  if_pos h

theorem padded_nonneg (h : 0 ≤ n) : padded width n = (Nat.toDigits 10 n.natAbs).leftpad width '0' :=
  if_neg (Int.not_lt.mpr h)

theorem padded_eq_fixedDigits {n : Nat} (h : n < 10 ^ (width + 1)) :
    padded (width + 1) n = fixedDigits (width + 1) n := by
  rw [padded_natCast, leftpad_toDigits h]

theorem minus_lt_of_isDigit {c : Char} (h : c.isDigit = true) : '-' < c := by
  simp only [Char.isDigit, Bool.and_eq_true, decide_eq_true_eq] at h
  exact lt_of_lt_of_le (by decide) h.1

theorem minus_lt_of_mem_padded (h : 0 ≤ n) : ∀ c ∈ padded width n, '-' < c := by
  intro c hc
  rw [padded_nonneg h] at hc
  exact minus_lt_of_isDigit (isDigit_leftpad hc)

theorem padded_inj (h : padded width m = padded width n) : m = n := by
  rcases Int.lt_or_le m 0 with hm | hm <;> rcases Int.lt_or_le n 0 with hn | hn
  · rw [padded_neg hm, padded_neg hn] at h
    have habs := leftpad_toDigits_inj (List.cons.inj h).2
    omega
  · have hminus : '-' ∈ padded width n := by
      rw [← h, padded_neg hm]
      exact List.mem_cons_self
    exact absurd (minus_lt_of_mem_padded hn _ hminus) (lt_irrefl _)
  · have hminus : '-' ∈ padded width m := by
      rw [h, padded_neg hn]
      exact List.mem_cons_self
    exact absurd (minus_lt_of_mem_padded hm _ hminus) (lt_irrefl _)
  · rw [padded_nonneg hm, padded_nonneg hn] at h
    have habs := leftpad_toDigits_inj h
    omega

theorem padded_sep_lt (h : padded width m < padded width n) (s t : Text) :
    padded width m ++ '-' :: s < padded width n ++ '-' :: t := by
  rcases Int.lt_or_le n 0 with hn | hn
  · rcases Int.lt_or_le m 0 with hm | hm
    · rw [padded_neg hm, padded_neg hn, List.cons_lt_cons_iff] at h
      rw [padded_neg hm, padded_neg hn, List.cons_append, List.cons_append, List.cons_lt_cons_iff]
      rcases h with hsign | ⟨-, hdigits⟩
      · exact absurd hsign (lt_irrefl _)
      · exact .inr ⟨rfl, append_sep_lt hdigits (fun c hc => minus_lt_of_isDigit (isDigit_leftpad hc)) s t⟩
    · exfalso
      rw [padded_neg hn] at h
      cases hdigits : padded width m with
      | nil =>
          rw [padded_nonneg hm, List.leftpad, List.append_eq_nil_iff] at hdigits
          exact Nat.toDigits_ne_nil hdigits.2
      | cons c rest =>
          rw [hdigits, List.cons_lt_cons_iff] at h
          have hminus : '-' < c := minus_lt_of_mem_padded hm c (hdigits ▸ List.mem_cons_self)
          rcases h with hless | ⟨rfl, -⟩
          · exact lt_asymm hless hminus
          · exact lt_irrefl _ hminus
  · exact append_sep_lt h (minus_lt_of_mem_padded hn) s t

/-- What follows numbers that differ decides nothing. -/
theorem padded_sep_lt_iff (hne : m ≠ n) (s t : Text) :
    padded width m ++ '-' :: s < padded width n ++ '-' :: t ↔ padded width m < padded width n := by
  constructor
  · intro h
    rcases lt_trichotomy (padded width m) (padded width n) with hless | heq | hmore
    · exact hless
    · exact absurd (padded_inj heq) hne
    · exact absurd h (lt_asymm (padded_sep_lt hmore t s))
  · intro h
    exact padded_sep_lt h s t

theorem length_padded_two (hn : 0 ≤ n) (hn' : n < 100) : (padded 2 n).length = 2 := by
  obtain ⟨k, rfl⟩ := Int.eq_ofNat_of_zero_le hn
  rw [padded_eq_fixedDigits (by omega), length_fixedDigits]

theorem padded_lt {width : Nat} (hm : 0 ≤ m) (h : m < n) (hn : n < 10 ^ (width + 1)) :
    padded (width + 1) m < padded (width + 1) n := by
  obtain ⟨j, rfl⟩ := Int.eq_ofNat_of_zero_le hm
  obtain ⟨k, rfl⟩ := Int.eq_ofNat_of_zero_le (by omega : 0 ≤ n)
  have hk : k < 10 ^ (width + 1) := by exact_mod_cast hn
  have hjk : j < k := by exact_mod_cast h
  rw [padded_eq_fixedDigits (lt_trans hjk hk), padded_eq_fixedDigits hk]
  exact fixedDigits_lt hjk hk

end Padded

/-! ### Months and hours -/

section Months

variable {y y' m m' : Int}

theorem monthKey_lt (hm : 0 ≤ m) (h : m < m') (hm' : m' < 100) : monthKey y m < monthKey y m' := by
  refine List.append_left_lt (List.cons_lt_cons_iff.mpr (.inr ⟨rfl, ?_⟩))
  exact padded_lt hm h hm'

theorem monthKey_inj (hm : 0 ≤ m) (hm1 : m < 100) (hm' : 0 ≤ m') (hm1' : m' < 100) (h : monthKey y m = monthKey y' m') :
    y = y' ∧ m = m' := by
  have hlength : ('-' :: padded 2 m).length = ('-' :: padded 2 m').length := by
    rw [List.length_cons, List.length_cons, length_padded_two hm hm1, length_padded_two hm' hm1']
  obtain ⟨hyear, hmonth⟩ := List.append_inj' h hlength
  exact ⟨padded_inj hyear, padded_inj (List.cons.inj hmonth).2⟩

theorem hourKey_lt {h h' : Int} (hh : 0 ≤ h) (hlt : h < h') (hh' : h' < 100) : hourKey h < hourKey h' := by
  refine append_lt_append (padded_lt hh hlt hh') ?_ _ _
  rw [length_padded_two hh (by omega), length_padded_two (by omega) hh']

end Months

/-! ### Days -/

section Days

variable {day day' : Int}

theorem dayOfMonth_le (day : Int) : dayOfMonth day ≤ 31 := by
  have hbefore := (monthOf_spec day).2.2.2
  have hday := leapDay_bounds (isLeap (yearOf day))
  obtain ⟨hfirst, hlast, -, -⟩ := monthOf_spec day
  rw [dayOfMonth]
  simp only [daysBefore] at hbefore ⊢
  split at hbefore <;> split <;> omega

theorem length_monthDay (day : Int) :
    ('-' :: (padded 2 (monthOf day) ++ '-' :: padded 2 (dayOfMonth day))).length = 6 := by
  obtain ⟨hfirst, hlast, hone, -⟩ := monthOf_spec day
  have hend := dayOfMonth_le day
  rw [List.length_cons, List.length_append, List.length_cons, length_padded_two (by omega) (by omega),
    length_padded_two (by omega) (by omega)]

theorem dayKey_inj (h : dayKey day = dayKey day') : day = day' := by
  obtain ⟨hfirst, hlast, -, -⟩ := monthOf_spec day
  obtain ⟨hfirst', hlast', -, -⟩ := monthOf_spec day'
  obtain ⟨hyear, hrest⟩ := List.append_inj' h (by rw [length_monthDay, length_monthDay])
  have hlength : (padded 2 (monthOf day)).length = (padded 2 (monthOf day')).length := by
    rw [length_padded_two (by omega) (by omega), length_padded_two (by omega) (by omega)]
  obtain ⟨hmonth, hday⟩ := List.append_inj (List.cons.inj hrest).2 hlength
  rw [← ofDate_eq day, ← ofDate_eq day', padded_inj hyear, padded_inj hmonth, padded_inj (List.cons.inj hday).2]

/-- A day's key is below the next day's, if the text of its year is when a year ends. -/
theorem dayKey_lt_succ_iff (day : Int) : dayKey day < dayKey (day + 1) ↔
    yearOf day = yearOf (day + 1) ∨ padded 4 (yearOf day) < padded 4 (yearOf (day + 1)) := by
  obtain ⟨hfirst, -, hone, -⟩ := monthOf_spec day
  obtain ⟨-, hlast, -, -⟩ := monthOf_spec (day + 1)
  have hend := dayOfMonth_le (day + 1)
  by_cases hyear : yearOf day = yearOf (day + 1)
  · refine iff_of_true ?_ (.inl hyear)
    rw [dayKey, dayKey, hyear]
    refine List.append_left_lt (List.cons_lt_cons_iff.mpr (.inr ⟨rfl, ?_⟩))
    rcases date_lt (Int.lt_succ day) with hless | ⟨-, hless | ⟨hmonth, hless⟩⟩
    · rw [hyear] at hless
      exact absurd hless (lt_irrefl _)
    · exact padded_sep_lt (padded_lt (by omega) hless (by omega)) _ _
    · rw [hmonth]
      refine List.append_left_lt (List.cons_lt_cons_iff.mpr (.inr ⟨rfl, ?_⟩))
      exact padded_lt (by omega) hless (by omega)
  · rw [or_iff_right hyear, dayKey, dayKey, padded_sep_lt_iff hyear]

end Days

end Quantframe.Utils
