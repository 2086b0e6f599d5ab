import Mathlib.Data.List.Induction
import Mathlib.Data.List.Infix

/-!
# The first occurrence of a word in a text

The search is stable when the text grows to the right, and it shifts when lines without the word
are put in front of the text.
-/

namespace Quantframe.Lib

universe u

variable {α : Type u}

theorem prefix_append_of_fits {word text more : List α} {i : Nat}
    (hfits : i + word.length ≤ text.length) :
    word <+: (text ++ more).drop i ↔ word <+: text.drop i := by
  rw [List.drop_append_of_le_length (by omega)]
  constructor
  · intro h
    exact List.prefix_of_prefix_length_le h (List.prefix_append _ _)
      (by rw [List.length_drop]; omega)
  · exact fun h => h.trans (List.prefix_append _ _)

/-- Nothing, or text that ends with the separator. -/
def Closed (sep : α) (text : List α) : Prop := text = [] ∨ ∃ lines, text = lines ++ [sep]

theorem Closed.nil (sep : α) : Closed sep [] := .inl rfl

theorem Closed.snoc (sep : α) (text : List α) : Closed sep (text ++ [sep]) := .inr ⟨text, rfl⟩

/-- A word without the separator does not reach over the end of closed text. -/
theorem prefix_drop_closed {sep : α} {word front text : List α} (hsep : sep ∉ word)
    (hclosed : Closed sep front) (habsent : ¬ word <:+: front) {i : Nat} (hi : i < front.length) :
    ¬ word <+: (front ++ text).drop i := by
  intro h
  rcases hclosed with rfl | ⟨lines, rfl⟩
  · exact absurd hi (Nat.not_lt_zero _)
  · by_cases hfits : i + word.length ≤ (lines ++ [sep]).length
    · rw [prefix_append_of_fits hfits] at h
      exact habsent (h.isInfix.trans (List.drop_suffix i _).isInfix)
    · rw [List.length_append, List.length_singleton] at hfits hi
      have hat : word[lines.length - i]? = some sep := by
        obtain ⟨rest, hrest⟩ := h
        have hinside : lines.length - i < word.length := by omega
        have hleft : (word ++ rest)[lines.length - i]? = word[lines.length - i]? :=
          List.getElem?_append_left hinside
        rw [← hleft, hrest, List.getElem?_drop,
          show i + (lines.length - i) = lines.length by omega, List.append_assoc,
          List.getElem?_append_right (Nat.le_refl _), Nat.sub_self]
        rfl
      exact hsep (List.mem_of_getElem? hat)

theorem drop_append_ge {front text : List α} {i : Nat} (h : front.length ≤ i) :
    (front ++ text).drop i = text.drop (i - front.length) := by
  rw [List.drop_append, List.drop_eq_nil_of_le h, List.nil_append]

theorem exists_lastLine (sep : α) (text : List α) :
    ∃ front line, text = front ++ line ∧ Closed sep front ∧ sep ∉ line := by
  induction text using List.reverseRecOn with
  | nil => exact ⟨[], [], rfl, .nil sep, List.not_mem_nil⟩
  | append_singleton text a ih =>
      by_cases ha : a = sep
      · subst ha
        exact ⟨text ++ [a], [], (List.append_nil _).symm, .snoc a text, List.not_mem_nil⟩
      · obtain ⟨front, line, rfl, hclosed, hline⟩ := ih
        refine ⟨front, line ++ [a], List.append_assoc _ _ _, hclosed, ?_⟩
        rw [List.mem_append, List.mem_singleton, not_or]
        exact ⟨hline, Ne.symm ha⟩

variable [DecidableEq α]

/-- The position of the first occurrence of a word. -/
def search (word : List α) : List α → Option Nat
  | [] => if word = [] then some 0 else none
  | a :: text => if word <+: a :: text then some 0 else (search word text).map (· + 1)

theorem search_occurs {word text : List α} {i : Nat} (h : search word text = some i) :
    word <+: text.drop i := by
  induction text generalizing i with
  | nil =>
      rw [search] at h
      split at h
      · next hword => rw [hword]; exact List.nil_prefix
      · cases h
  | cons a text ih =>
      rw [search] at h
      split at h
      · next hword =>
          cases h
          exact hword
      · obtain ⟨j, hj, rfl⟩ := Option.map_eq_some_iff.mp h
        exact ih hj

theorem search_first {word text : List α} {i j : Nat} (h : search word text = some i) (hj : j < i) :
    ¬ word <+: text.drop j := by
  induction text generalizing i j with
  | nil =>
      rw [search] at h
      split at h
      · cases h
        exact absurd hj (Nat.not_lt_zero _)
      · cases h
  | cons a text ih =>
      rw [search] at h
      split at h
      · cases h
        exact absurd hj (Nat.not_lt_zero _)
      · next hword =>
          obtain ⟨k, hk, rfl⟩ := Option.map_eq_some_iff.mp h
          cases j with
          | zero => exact hword
          | succ j => exact ih hk (Nat.lt_of_succ_lt_succ hj)

theorem search_none {word text : List α} : search word text = none ↔ ¬ word <:+: text := by
  induction text with
  | nil =>
      rw [search, List.infix_nil]
      split
      · next hword => simp [hword]
      · next hword => simp [hword]
  | cons a text ih =>
      rw [search, List.infix_cons_iff]
      split
      · next hword => simp [hword]
      · next hword =>
          rw [Option.map_eq_none_iff, ih]
          simp [hword]

theorem search_of_occurs {word text : List α} {i : Nat} (hword : word <+: text.drop i)
    (hfirst : ∀ j < i, ¬ word <+: text.drop j) : search word text = some i := by
  cases hfound : search word text with
  | none =>
      have hinside : word <:+: text := hword.isInfix.trans (List.drop_suffix i text).isInfix
      exact absurd hinside (search_none.mp hfound)
  | some j =>
      rcases Nat.lt_trichotomy i j with hij | hij | hij
      · exact absurd hword (search_first hfound hij)
      · rw [hij]
      · exact absurd (search_occurs hfound) (hfirst j hij)

theorem search_bound {word text : List α} {i : Nat} (hword : word ≠ [])
    (h : search word text = some i) : i + word.length ≤ text.length := by
  have hlength := (search_occurs h).length_le
  have hpos := List.length_pos_iff.mpr hword
  rw [List.length_drop] at hlength
  omega

/-- What follows a text does not move the first occurrence in it. -/
theorem search_append {word text more : List α} {i : Nat} (hword : word ≠ [])
    (h : search word text = some i) : search word (text ++ more) = some i := by
  have hbound := search_bound hword h
  refine search_of_occurs ?_ ?_
  · exact (prefix_append_of_fits hbound).mpr (search_occurs h)
  · intro j hj
    rw [prefix_append_of_fits (by omega)]
    exact search_first h hj

/-- Closed text without the word only shifts the search. -/
theorem search_shift {sep : α} {word front text : List α} (hsep : sep ∉ word)
    (hclosed : Closed sep front) (habsent : ¬ word <:+: front) :
    search word (front ++ text) = (search word text).map (front.length + ·) := by
  cases hfound : search word text with
  | none =>
      rw [Option.map_none, search_none]
      intro h
      obtain ⟨i, hi⟩ : ∃ i, word <+: (front ++ text).drop i := by
        obtain ⟨left, right, hsplit⟩ := h
        refine ⟨left.length, right, ?_⟩
        rw [← hsplit, List.append_assoc, List.drop_left]
      rcases Nat.lt_or_ge i front.length with hlt | hge
      · exact prefix_drop_closed hsep hclosed habsent hlt hi
      · rw [drop_append_ge hge] at hi
        exact search_none.mp hfound (hi.isInfix.trans (List.drop_suffix _ _).isInfix)
  | some i =>
      rw [Option.map_some]
      refine search_of_occurs ?_ ?_
      · rw [drop_append_ge (Nat.le_add_right _ _), Nat.add_sub_cancel_left]
        exact search_occurs hfound
      · intro j hj
        rcases Nat.lt_or_ge j front.length with hlt | hge
        · exact prefix_drop_closed hsep hclosed habsent hlt
        · rw [drop_append_ge hge]
          exact search_first hfound (by omega)

/-! ### The line a text ends in -/

/-- The position of the last element with a property. -/
def rposition (p : α → Bool) (text : List α) : Option Nat :=
  (text.reverse.findIdx? p).map fun k => text.length - 1 - k

/-- Where the line that a text ends in begins. -/
def lastLineStart (sep : α) (text : List α) : Nat :=
  (rposition (fun a => a = sep) text).elim 0 (· + 1)

theorem lastLineStart_append {sep : α} {front line : List α} (hclosed : Closed sep front)
    (hline : sep ∉ line) : lastLineStart sep (front ++ line) = front.length := by
  have hmiss : line.reverse.findIdx? (fun a => decide (a = sep)) = none := by
    rw [List.findIdx?_eq_none_iff]
    intro a ha
    exact decide_eq_false fun h => hline (h ▸ List.mem_reverse.mp ha)
  rw [lastLineStart, rposition, List.reverse_append, List.findIdx?_append, hmiss, Option.none_or]
  rcases hclosed with rfl | ⟨lines, rfl⟩
  · rfl
  · simp only [List.reverse_append, List.reverse_cons, List.reverse_nil, List.nil_append,
      List.cons_append, List.findIdx?_cons, decide_true, Option.map_some, List.length_reverse,
      List.length_append, List.length_singleton, Option.elim_some, if_true]
    omega

/-- Closed text in front only shifts the line starts. -/
theorem lastLineStart_shift {sep : α} {front text : List α} (hclosed : Closed sep front) :
    lastLineStart sep (front ++ text) = front.length + lastLineStart sep text := by
  obtain ⟨lines, line, rfl, hlines, hline⟩ := exists_lastLine sep text
  have hboth : Closed sep (front ++ lines) := by
    rcases hlines with rfl | ⟨lines, rfl⟩
    · rw [List.append_nil]
      exact hclosed
    · rw [← List.append_assoc]
      exact .snoc sep _
  rw [← List.append_assoc, lastLineStart_append hboth hline, lastLineStart_append hlines hline,
    List.length_append]

end Quantframe.Lib
