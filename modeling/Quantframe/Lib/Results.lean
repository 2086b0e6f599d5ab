import Mathlib.Data.List.Forall2

/-!
# Traversals that can fail

A traversal of a list succeeds exactly when the function does at every element.
-/

namespace Quantframe.Lib

universe u v w

variable {α : Type u} {β : Type v} {ε : Type w} {f : α → Except ε β}

/-- What a traversal returns is, element by element, what the function returns. -/
theorem mapM_eq_ok {xs : List α} {ys : List β} :
    xs.mapM f = .ok ys ↔ List.Forall₂ (fun x y => f x = .ok y) xs ys := by
  induction xs generalizing ys with
  | nil =>
      rw [List.mapM_nil, List.forall₂_nil_left_iff]
      constructor
      · intro h
        exact (Except.ok.inj h).symm
      · intro h
        rw [h]
        rfl
  | cons x xs ih =>
      rw [List.mapM_cons, List.forall₂_cons_left_iff]
      cases hx : f x with
      | error e =>
          constructor
          · intro h
            cases h
          · intro ⟨_, _, h, _⟩
            cases h
      | ok y =>
          cases hxs : xs.mapM f with
          | error e =>
              constructor
              · intro h
                cases h
              · intro ⟨_, _, _, hrest, _⟩
                cases hxs.symm.trans (ih.mpr hrest)
          | ok zs =>
              constructor
              · intro h
                cases h
                exact ⟨y, zs, rfl, ih.mp hxs, rfl⟩
              · intro ⟨_, _, h, hrest, hys⟩
                cases h
                cases hxs.symm.trans (ih.mpr hrest)
                rw [hys]
                rfl

theorem mapM_isOk {xs : List α} : (∃ ys, xs.mapM f = .ok ys) ↔ ∀ x ∈ xs, ∃ y, f x = .ok y := by
  constructor
  · intro ⟨ys, h⟩ x hx
    have hpoint := mapM_eq_ok.mp h
    clear h
    induction hpoint with
    | nil => cases hx
    | cons hfirst _ ih =>
        cases hx with
        | head => exact ⟨_, hfirst⟩
        | tail _ hx => exact ih hx
  · intro h
    induction xs with
    | nil => exact ⟨[], rfl⟩
    | cons x xs ih =>
        obtain ⟨y, hy⟩ := h x List.mem_cons_self
        obtain ⟨ys, hys⟩ := ih fun x' hx' => h x' (List.mem_cons_of_mem _ hx')
        exact ⟨y :: ys, mapM_eq_ok.mpr (.cons hy (mapM_eq_ok.mp hys))⟩

/-- What a traversal that succeeds returns, by any function that finds what `f` returns. -/
theorem eq_filterMap_of_mapM {xs : List α} {ys : List β} (h : xs.mapM f = .ok ys) {g : α → Option β}
    (hg : ∀ x ∈ xs, ∀ y, f x = .ok y → g x = some y) : ys = xs.filterMap g := by
  have hpoint := mapM_eq_ok.mp h
  clear h
  induction hpoint with
  | nil => rfl
  | cons hfirst _ ih =>
      rw [List.filterMap_cons_some (hg _ List.mem_cons_self _ hfirst),
        ← ih fun x hx => hg x (List.mem_cons_of_mem _ hx)]

end Quantframe.Lib
