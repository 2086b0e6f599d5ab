import Mathlib.Data.List.Basic
import Quantframe.Lib.Search

/-!
# The lines of a text

A separator ends a line; what follows the last one is a line when it is not empty.
-/

namespace Quantframe.Lib

universe u

variable {α : Type u} [DecidableEq α]

def lines (sep : α) : List α → List (List α)
  | [] => []
  | a :: text =>
    if a = sep then [] :: lines sep text
    else
      match lines sep text with
      | [] => [[a]]
      | line :: rest => (a :: line) :: rest

/-- Each line with its separator. -/
def unlines (sep : α) (ls : List (List α)) : List α := ls.flatMap fun line => line ++ [sep]

/-- A finished line and what follows it. -/
theorem lines_cons_line {sep : α} {line : List α} (hline : sep ∉ line) (text : List α) :
    lines sep (line ++ sep :: text) = line :: lines sep text := by
  induction line with
  | nil => rw [List.nil_append, lines, if_pos rfl]
  | cons a line ih =>
      rw [List.mem_cons, not_or] at hline
      rw [List.cons_append, lines, if_neg (Ne.symm hline.1), ih hline.2]

theorem lines_unlines {sep : α} {ls : List (List α)} (hls : ∀ line ∈ ls, sep ∉ line) :
    lines sep (unlines sep ls) = ls := by
  induction ls with
  | nil => rfl
  | cons line ls ih =>
      have hrest := ih fun l hl => hls l (List.mem_cons_of_mem _ hl)
      rw [unlines, List.flatMap_cons, ← unlines, List.append_assoc, List.singleton_append,
        lines_cons_line (hls line List.mem_cons_self), hrest]

/-- Finished lines do not depend on what follows. -/
theorem lines_append {sep : α} {front : List α} (hclosed : Closed sep front) (text : List α) :
    lines sep (front ++ text) = lines sep front ++ lines sep text := by
  rcases hclosed with rfl | ⟨body, rfl⟩
  · rfl
  · induction body with
    | nil =>
        simp only [List.nil_append, List.cons_append, lines, if_true]
    | cons a body ih =>
        rw [List.cons_append, List.cons_append, lines, lines, ih]
        split
        · rfl
        · cases hbody : lines sep (body ++ [sep]) with
          | nil =>
              exfalso
              cases body with
              | nil => simp [lines] at hbody
              | cons b body =>
                  rw [List.cons_append, lines] at hbody
                  split at hbody
                  · cases hbody
                  · split at hbody <;> cases hbody
          | cons line rest => rfl

theorem lines_ne_nil {sep : α} {text : List α} (h : text ≠ []) : lines sep text ≠ [] := by
  cases text with
  | nil => exact absurd rfl h
  | cons a text =>
      rw [lines]
      split
      · exact List.cons_ne_nil _ _
      · cases lines sep text with
        | nil => exact List.cons_ne_nil _ _
        | cons line rest => exact List.cons_ne_nil _ _

theorem mem_of_mem_lines {sep a : α} {text line : List α} (hline : line ∈ lines sep text)
    (ha : a ∈ line) : a ∈ text ∧ a ≠ sep := by
  induction text generalizing line with
  | nil => exact absurd hline List.not_mem_nil
  | cons b text ih =>
      rw [lines] at hline
      split at hline
      · rcases List.mem_cons.mp hline with rfl | hline
        · exact absurd ha List.not_mem_nil
        · exact ⟨List.mem_cons_of_mem _ (ih hline ha).1, (ih hline ha).2⟩
      · next hb =>
          split at hline
          · rw [List.mem_singleton.mp hline, List.mem_singleton] at ha
            rw [ha]
            exact ⟨List.mem_cons_self, hb⟩
          · next first rest hrest =>
              rcases List.mem_cons.mp hline with rfl | hline
              · rcases List.mem_cons.mp ha with rfl | ha
                · exact ⟨List.mem_cons_self, hb⟩
                · have hmem := ih (hrest ▸ List.mem_cons_self) ha
                  exact ⟨List.mem_cons_of_mem _ hmem.1, hmem.2⟩
              · have hmem := ih (hrest ▸ List.mem_cons_of_mem _ hline) ha
                exact ⟨List.mem_cons_of_mem _ hmem.1, hmem.2⟩

end Quantframe.Lib
