import Mathlib.Data.List.Basic
import Quantframe.Lib.Machine

/-!
# Logs

What holds of each entry of a log and those before it.
-/

namespace Quantframe.Lib

variable {α : Type} {P Q : List α → α → Prop} {log : List α} {a : α}

/-- What holds of the entries so far and of a new one. -/
theorem forall_concat {P : α → Prop} (hold : ∀ b ∈ log, P b) (hnew : P a) : ∀ b ∈ log ++ [a], P b :=
  List.forall_mem_append.mpr ⟨hold, List.forall_mem_singleton.mpr hnew⟩

def Throughout (P : List α → α → Prop) (log : List α) : Prop :=
  ∀ before a after, log = before ++ a :: after → P before a

theorem throughout_nil : Throughout P [] := by
  intro before a after h
  simp at h

theorem throughout_concat : Throughout P (log ++ [a]) ↔ Throughout P log ∧ P log a := by
  constructor
  · intro h
    refine ⟨fun before b after hlog => h before b (after ++ [a]) ?_, h log a [] rfl⟩
    rw [hlog, List.append_assoc, List.cons_append]
  · rintro ⟨hold, hnew⟩ before b after hlog
    rcases List.eq_nil_or_concat after with rfl | ⟨between, last, rfl⟩
    · obtain ⟨rfl, hlast⟩ := List.append_inj' hlog rfl
      cases hlast
      exact hnew
    · rw [List.concat_eq_append, ← List.cons_append, ← List.append_assoc] at hlog
      obtain ⟨hlog, -⟩ := List.append_inj' hlog rfl
      exact hold before b between hlog

/-- What one step keeps of the labels and the state, and what every step so taken has. -/
theorem Trace.throughout {S L : Type} {step : Machine S L} {Inv : List L → S → Prop} {P : List L → L → Prop}
    (hstep : ∀ before s l t, Inv before s → step s l = some t → Inv (before ++ [l]) t ∧ P before l)
    {s t : S} {ls : List L} (h : Trace step s ls t) (hs : Inv [] s) : Inv ls t ∧ Throughout P ls := by
  refine @Trace.history S L step (fun before s => Inv before s ∧ Throughout P before) ?_ s t ls [] h
    ⟨hs, throughout_nil⟩
  intro before s l t hbefore hl
  obtain ⟨hinv, hP⟩ := hstep before s l t hbefore.1 hl
  exact ⟨hinv, throughout_concat.mpr ⟨hbefore.2, hP⟩⟩

/-! ### Since an entry -/

/-- An entry with `P` stands in the log, and no entry with `Q` after it. -/
def Since (P Q : List α → α → Prop) (log : List α) : Prop :=
  ∃ before a after, log = before ++ a :: after ∧ P before a ∧
    ∀ between b rest, after = between ++ b :: rest → ¬ Q (before ++ a :: between) b

theorem not_since_nil : ¬ Since P Q [] := by
  rintro ⟨before, a, after, h, -⟩
  simp at h

theorem since_concat : Since P Q (log ++ [a]) ↔ P log a ∨ Since P Q log ∧ ¬ Q log a := by
  constructor
  · rintro ⟨before, b, after, hlog, hP, hQ⟩
    rcases List.eq_nil_or_concat after with rfl | ⟨between, last, rfl⟩
    · obtain ⟨rfl, hlast⟩ := List.append_inj' hlog rfl
      cases hlast
      exact .inl hP
    · rw [List.concat_eq_append, ← List.cons_append, ← List.append_assoc] at hlog
      obtain ⟨rfl, hlast⟩ := List.append_inj' hlog rfl
      cases hlast
      refine .inr ⟨⟨before, b, between, rfl, hP, ?_⟩, hQ between a [] (List.concat_eq_append ..)⟩
      intro earlier c rest hbetween
      refine hQ earlier c (rest ++ [a]) ?_
      rw [List.concat_eq_append, hbetween, List.append_assoc, List.cons_append]
  · rintro (hP | ⟨⟨before, b, after, rfl, hP, hQ⟩, hnot⟩)
    · exact ⟨log, a, [], rfl, hP, fun between b rest h => by simp at h⟩
    · refine ⟨before, b, after ++ [a], by rw [List.append_assoc, List.cons_append], hP, ?_⟩
      intro between c rest hafter
      rcases List.eq_nil_or_concat rest with rfl | ⟨rest, last, rfl⟩
      · obtain ⟨rfl, hlast⟩ := List.append_inj' hafter rfl
        cases hlast
        exact hnot
      · rw [List.concat_eq_append, ← List.cons_append, ← List.append_assoc] at hafter
        obtain ⟨hafter, -⟩ := List.append_inj' hafter rfl
        exact hQ between c rest hafter

/-- An entry with `P` stands in the log. -/
def Happened (P : List α → α → Prop) (log : List α) : Prop := Since P (fun _ _ => False) log

theorem not_happened_nil : ¬ Happened P [] := not_since_nil

theorem happened_concat : Happened P (log ++ [a]) ↔ P log a ∨ Happened P log := by
  rw [Happened, Happened, since_concat, not_false_eq_true, and_true]

theorem Since.happened (h : Since P Q log) : Happened P log := by
  obtain ⟨before, a, after, hlog, hP, -⟩ := h
  exact ⟨before, a, after, hlog, hP, fun _ _ _ _ => not_false⟩

end Quantframe.Lib
