import Mathlib.Algebra.BigOperators.Group.List.Basic
import Mathlib.Data.List.Nodup
import Mathlib.Tactic.Abel

/-!
# Tables with a primary key

Rows in insertion order, no two with the same key. Every statement is described by what a lookup
sees after it.
-/

namespace Quantframe.Lib

universe u v

structure Table {ρ : Type u} {κ : Type v} (key : ρ → κ) where
  rows : List ρ
  primaryKey : (rows.map key).Nodup

namespace Table

variable {ρ : Type u} {κ : Type v} [DecidableEq κ] {key : ρ → κ}

def empty : Table key := ⟨[], List.nodup_nil⟩

def lookup (t : Table key) (k : κ) : Option ρ := t.rows.find? fun r => key r = k

theorem key_of_lookup {t : Table key} {k : κ} {r : ρ} (h : t.lookup k = some r) : key r = k := by
  have := List.find?_some h
  exact of_decide_eq_true this

theorem mem_of_lookup {t : Table key} {k : κ} {r : ρ} (h : t.lookup k = some r) : r ∈ t.rows :=
  List.mem_of_find?_eq_some h

theorem lookup_eq_none {t : Table key} {k : κ} : t.lookup k = none ↔ k ∉ t.rows.map key := by
  simp only [lookup, List.find?_eq_none, decide_eq_true_eq, List.mem_map, not_exists, not_and]

theorem lookup_of_mem {t : Table key} {r : ρ} (h : r ∈ t.rows) : t.lookup (key r) = some r := by
  cases hfound : t.lookup (key r) with
  | none => exact absurd (List.mem_map_of_mem h) (lookup_eq_none.mp hfound)
  | some r' =>
      have hsame := List.inj_on_of_nodup_map t.primaryKey (mem_of_lookup hfound) h
        (key_of_lookup hfound)
      rw [hsame]

/-- Rows are found by a key that no two of them share. -/
theorem find?_of_nodup {rows : List ρ} (h : (rows.map key).Nodup) {r : ρ} (hr : r ∈ rows) :
    (rows.find? fun row => key row = key r) = some r :=
  lookup_of_mem (t := ⟨rows, h⟩) hr

/-- The rows of a key that no two share are the one that is found, if there is one. -/
theorem filter_eq_find?_toList {rows : List ρ} (h : (rows.map key).Nodup) (k : κ) :
    (rows.filter fun row => decide (key row = k)) = (rows.find? fun row => decide (key row = k)).toList := by
  induction rows with
  | nil => rfl
  | cons row rows ih =>
      obtain ⟨hnot, hrest⟩ := List.nodup_cons.mp h
      by_cases hk : key row = k
      · have hnone : (rows.filter fun other => decide (key other = k)) = [] :=
          List.filter_eq_nil_iff.mpr fun other hother hkey =>
            hnot (List.mem_map.mpr ⟨other, hother, (of_decide_eq_true hkey).trans hk.symm⟩)
        simp [hk, hnone]
      · simp [hk, ih hrest]

/-- `DELETE … WHERE key = k`. -/
def delete (t : Table key) (k : κ) : Table key where
  rows := t.rows.filter fun r => key r ≠ k
  primaryKey := (List.filter_sublist.map key).nodup t.primaryKey

theorem lookup_delete (t : Table key) (k k' : κ) :
    (t.delete k).lookup k' = if k' = k then none else t.lookup k' := by
  simp only [lookup, delete, List.find?_filter]
  split
  · next hk =>
      subst hk
      simp
  · next hk =>
      congr 1
      funext r
      by_cases hr : key r = k'
      · simp [hr, hk]
      · simp [hr]

theorem lookup_of_delete {t : Table key} {k k' : κ} {r : ρ} (h : (t.delete k).lookup k' = some r) :
    t.lookup k' = some r := by
  rw [lookup_delete] at h
  split at h
  · cases h
  · exact h

/-- `DELETE` of the rows that do not satisfy `p`. -/
def keep (t : Table key) (p : ρ → Bool) : Table key where
  rows := t.rows.filter p
  primaryKey := (List.filter_sublist.map key).nodup t.primaryKey

theorem lookup_keep (t : Table key) (p : ρ → Bool) (k : κ) : (t.keep p).lookup k = (t.lookup k).filter p := by
  cases hfound : t.lookup k with
  | none =>
      rw [Option.filter_none, lookup_eq_none]
      exact fun hin => lookup_eq_none.mp hfound ((List.filter_sublist.map key).subset hin)
  | some r =>
      have hkey := key_of_lookup hfound
      have hrow := mem_of_lookup hfound
      by_cases hr : p r = true
      · have hkept := lookup_of_mem (t := t.keep p) (List.mem_filter.mpr ⟨hrow, hr⟩)
        rw [hkey] at hkept
        rw [hkept, Option.filter_some_pos hr]
      · rw [Option.filter_some_neg (Bool.eq_false_iff.mpr hr), lookup_eq_none]
        intro hin
        obtain ⟨r', hr', hkey'⟩ := List.mem_map.mp hin
        obtain ⟨hrow', hp⟩ := List.mem_filter.mp hr'
        have hsame := List.inj_on_of_nodup_map t.primaryKey hrow' hrow (hkey'.trans hkey.symm)
        exact hr (hsame ▸ hp)

/-- `UPDATE … SET … WHERE key = k`, where no column of the key is set. -/
def update (t : Table key) (k : κ) (f : ρ → ρ) (hf : ∀ r, key (f r) = key r) : Table key where
  rows := t.rows.map fun r => if key r = k then f r else r
  primaryKey := by
    have hsame : (key ∘ fun r => if key r = k then f r else r) = key := by
      funext r
      simp only [Function.comp_apply]
      split
      · exact hf r
      · rfl
    rw [List.map_map, hsame]
    exact t.primaryKey

theorem lookup_update (t : Table key) (k : κ) (f : ρ → ρ) (hf : ∀ r, key (f r) = key r) (k' : κ) :
    (t.update k f hf).lookup k' = if k' = k then (t.lookup k').map f else t.lookup k' := by
  simp only [lookup, update, List.find?_map]
  have hsame : ((fun r => decide (key r = k')) ∘ fun r => if key r = k then f r else r) =
      fun r => decide (key r = k') := by
    funext r
    simp only [Function.comp_apply]
    split
    · rw [hf r]
    · rfl
  rw [hsame]
  cases hfound : t.rows.find? fun r => decide (key r = k') with
  | none => simp only [Option.map_none, ite_self]
  | some r =>
      have hr := List.find?_some hfound
      rw [decide_eq_true_eq] at hr
      simp only [Option.map_some, hr]
      split <;> rfl

omit [DecidableEq κ] in
@[ext] theorem ext_rows {t t' : Table key} (h : t.rows = t'.rows) : t = t' := by
  cases t
  cases t'
  cases h
  rfl

/-- An update changes nothing exactly when it keeps the one row it is about. -/
theorem update_eq_self_iff {t : Table key} {k : κ} {f : ρ → ρ} {hf : ∀ r, key (f r) = key r} {r : ρ}
    (h : t.lookup k = some r) : t.update k f hf = t ↔ f r = r := by
  constructor
  · intro hsame
    have hset := lookup_update t k f hf k
    rw [hsame, if_pos rfl, h, Option.map_some] at hset
    exact (Option.some.inj hset).symm
  · intro hr
    ext1
    refine (List.map_congr_left fun r' hr' => ?_).trans (List.map_id' t.rows)
    split
    · next hk =>
        have hfound := lookup_of_mem hr'
        rw [hk, h] at hfound
        rw [← Option.some.inj hfound, hr]
    · rfl

/-- `INSERT OR REPLACE`: a row with the same key gives way. -/
def insertOrReplace (t : Table key) (r : ρ) : Table key where
  rows := (t.delete (key r)).rows ++ [r]
  primaryKey := by
    rw [List.map_append, List.map_singleton, ← List.concat_eq_append]
    refine (t.delete (key r)).primaryKey.concat ?_
    rw [← lookup_eq_none, lookup_delete, if_pos rfl]

theorem lookup_insertOrReplace (t : Table key) (r : ρ) (k : κ) :
    (t.insertOrReplace r).lookup k = if k = key r then some r else t.lookup k := by
  have happend : (t.insertOrReplace r).lookup k =
      ((t.delete (key r)).lookup k).or ([r].find? fun r' => key r' = k) := by
    simp only [lookup, insertOrReplace, List.find?_append]
  rw [happend, lookup_delete]
  by_cases hk : k = key r
  · subst hk
    simp
  · rw [if_neg hk, if_neg hk, List.find?_cons_of_neg (by simpa using Ne.symm hk), List.find?_nil,
      Option.or_none]

/-- `INSERT OR IGNORE`: a row with the same key stays. -/
def insertOrIgnore (t : Table key) (r : ρ) : Table key :=
  if (t.lookup (key r)).isSome then t else t.insertOrReplace r

theorem lookup_insertOrIgnore (t : Table key) (r : ρ) (k : κ) :
    (t.insertOrIgnore r).lookup k = (t.lookup k).or (if k = key r then some r else none) := by
  rw [insertOrIgnore]
  by_cases hk : k = key r
  · subst hk
    cases hfound : t.lookup (key r) with
    | some old => simp [hfound]
    | none => simp [lookup_insertOrReplace]
  · rw [if_neg hk, Option.or_none]
    split
    · rfl
    · rw [lookup_insertOrReplace, if_neg hk]

/-- After several of them the last row with a key stands. -/
theorem lookup_foldl_insertOrReplace (rows : List ρ) (t : Table key) (k : κ) :
    (rows.foldl insertOrReplace t).lookup k = (rows.reverse.find? fun r => key r = k).or (t.lookup k) := by
  induction rows generalizing t with
  | nil => rfl
  | cons r rows ih =>
      rw [List.foldl_cons, ih, lookup_insertOrReplace, List.reverse_cons, List.find?_append]
      by_cases hk : key r = k
      · rw [List.find?_cons_of_pos (by simpa using hk), if_pos hk.symm, Option.or_assoc, Option.some_or]
      · rw [List.find?_cons_of_neg (by simpa using hk), if_neg (Ne.symm hk), List.find?_nil, Option.or_none]

/-! ### Sums over the rows -/

section Total

variable {M : Type*} [AddCommGroup M]

theorem rows_delete (t : Table key) (k : κ) : (t.delete k).rows = t.rows.filter fun r => key r ≠ k := rfl

theorem rows_update (t : Table key) (k : κ) (f : ρ → ρ) (hf : ∀ r, key (f r) = key r) :
    (t.update k f hf).rows = t.rows.map fun r => if key r = k then f r else r := rfl

theorem rows_insertOrReplace (t : Table key) (r : ρ) :
    (t.insertOrReplace r).rows = (t.rows.filter fun r' => key r' ≠ key r) ++ [r] := rfl

def total (t : Table key) (g : ρ → M) : M := (t.rows.map g).sum

theorem filter_of_not_mem {rows : List ρ} {k : κ} (h : k ∉ rows.map key) :
    rows.filter (fun r => key r ≠ k) = rows := by
  refine List.filter_eq_self.mpr fun r hr => ?_
  rw [decide_eq_true_eq]
  rintro rfl
  exact h (List.mem_map_of_mem hr)

theorem map_of_not_mem {rows : List ρ} {k : κ} {f : ρ → ρ} (h : k ∉ rows.map key) :
    rows.map (fun r => if key r = k then f r else r) = rows := by
  refine (List.map_congr_left fun r hr => ?_).trans (List.map_id' rows)
  rw [if_neg]
  rintro rfl
  exact h (List.mem_map_of_mem hr)

/-- The rows around the one with a key. -/
theorem split_of_lookup {t : Table key} {k : κ} {r : ρ} (h : t.lookup k = some r) :
    ∃ before after, t.rows = before ++ r :: after ∧ k ∉ before.map key ∧ k ∉ after.map key := by
  obtain ⟨before, after, hrows⟩ := List.append_of_mem (mem_of_lookup h)
  have hnodup := t.primaryKey
  rw [hrows, List.map_append, List.map_cons, key_of_lookup h] at hnodup
  refine ⟨before, after, hrows, ?_, ?_⟩
  · intro hk
    exact (List.nodup_append.mp hnodup).2.2 k hk k List.mem_cons_self rfl
  · exact (List.nodup_cons.mp (List.nodup_append.mp hnodup).2.1).1

theorem total_delete {t : Table key} {k : κ} {r : ρ} (h : t.lookup k = some r) (g : ρ → M) :
    (t.delete k).total g = t.total g - g r := by
  obtain ⟨before, after, hrows, hbefore, hafter⟩ := split_of_lookup h
  have hr := key_of_lookup h
  have hleft : (t.delete k).rows = before ++ after := by
    rw [rows_delete, hrows, List.filter_append, filter_of_not_mem hbefore, List.filter_cons_of_neg,
      filter_of_not_mem hafter]
    simp [hr]
  simp only [total, hleft, hrows, List.map_append, List.map_cons, List.sum_append, List.sum_cons]
  abel

theorem total_update {t : Table key} {k : κ} {r : ρ} (h : t.lookup k = some r) {f : ρ → ρ}
    {hf : ∀ r, key (f r) = key r} (g : ρ → M) :
    (t.update k f hf).total g = t.total g - g r + g (f r) := by
  obtain ⟨before, after, hrows, hbefore, hafter⟩ := split_of_lookup h
  have hset : (t.update k f hf).rows = before ++ f r :: after := by
    rw [rows_update, hrows, List.map_append, map_of_not_mem hbefore, List.map_cons, map_of_not_mem hafter,
      if_pos (key_of_lookup h)]
  simp only [total, hset, hrows, List.map_append, List.map_cons, List.sum_append, List.sum_cons]
  abel

theorem total_insertOrReplace {t : Table key} {r : ρ} (h : t.lookup (key r) = none) (g : ρ → M) :
    (t.insertOrReplace r).total g = t.total g + g r := by
  have hrows : (t.insertOrReplace r).rows = t.rows ++ [r] := by
    rw [rows_insertOrReplace, filter_of_not_mem (lookup_eq_none.mp h)]
  simp only [total, hrows, List.map_append, List.map_singleton, List.sum_append, List.sum_singleton]

end Total

end Table

end Quantframe.Lib
