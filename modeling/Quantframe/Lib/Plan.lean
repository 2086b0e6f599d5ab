import Mathlib.Tactic.Push
import Quantframe.Lib.Prog

/-!
# Programs whose operations may be refused

A fallible program stops at the first operation that is refused, and nothing undoes what it did
before. Its plan lists the operations it goes through when none is refused; the rules build the plan
of a program from the plans of its parts. What counts of the state is a view of it.
-/

namespace Quantframe.Lib

open Prog

variable {Op : Type} {Reply : Op → Type} {S V α β ε : Type}

/-- With every operation of `plan` granted the program ends with `out` in `s'`. With one of them
refused it fails and the view stays as in `s`. -/
structure Performs (answer : (o : Op) → S → Reply o × S) (granted : Op → Prop) (failure : ε → Prop)
    (view : S → V) (p : ExceptT ε (Prog Op Reply) α) (s : S) (plan : List Op) (out : Except ε α)
    (s' : S) : Prop where
  done : (∀ o ∈ plan, granted o) → p.run.eval answer s = (out, s')
  stopped : (∃ o ∈ plan, ¬ granted o) →
    ∃ e t, failure e ∧ p.run.eval answer s = (.error e, t) ∧ view t = view s

/-- The program fails, and what it did before shows in the view. -/
def FailsHalfway (answer : (o : Op) → S → Reply o × S) (failure : ε → Prop) (view : S → V)
    (p : ExceptT ε (Prog Op Reply) α) (s : S) : Prop :=
  ∃ e, failure e ∧ (p.run.eval answer s).1 = .error e ∧ view (p.run.eval answer s).2 ≠ view s

namespace Performs

variable {answer : (o : Op) → S → Reply o × S} {granted : Op → Prop} {failure : ε → Prop}
  {view : S → V} {p : ExceptT ε (Prog Op Reply) α} {f : α → ExceptT ε (Prog Op Reply) β}
  {s t s' : S} {plan plan' : List Op}

/-- A program without operations. -/
theorem nil {out : Except ε α} (h : p.run = .done out) :
    Performs answer granted failure view p s [] out s where
  done _ := by rw [h, eval_done]
  stopped h := by
    obtain ⟨o, ho, _⟩ := h
    exact absurd ho List.not_mem_nil

theorem pure (a : α) :
    Performs answer granted failure view (Pure.pure a : ExceptT ε (Prog Op Reply) α) s [] (.ok a) s :=
  nil rfl

theorem eval_eq {out : Except ε α} (h : Performs answer granted failure view p s [] out s') :
    p.run.eval answer s = (out, s') :=
  h.done fun _ ho => absurd ho List.not_mem_nil

/-- A program that returns had every operation granted. -/
theorem of_eval_ok {out : Except ε α} {a : α} (h : Performs answer granted failure view p s plan out s')
    (hrun : p.run.eval answer s = (.ok a, t)) : out = .ok a ∧ s' = t := by
  by_cases hplan : ∀ o ∈ plan, granted o
  · rw [h.done hplan, Prod.mk.injEq] at hrun
    exact hrun
  · push Not at hplan
    obtain ⟨e, u, _, hstop, _⟩ := h.stopped hplan
    rw [hstop] at hrun
    cases hrun

theorem refused_of_not_all (h : ¬ ∀ o ∈ plan, granted o) : ∃ o ∈ plan, ¬ granted o := by
  push Not at h
  exact h

/-- First a program that keeps the view. -/
theorem bind {a : α} {out : Except ε β}
    (hp : Performs answer granted failure view p s plan (.ok a) t) (hview : view t = view s)
    (hf : Performs answer granted failure view (f a) t plan' out s') :
    Performs answer granted failure view (p >>= f) s (plan ++ plan') out s' where
  done h := by
    rw [eval_bindE_ok answer (hp.done fun o ho => h o (List.mem_append_left _ ho))]
    exact hf.done fun o ho => h o (List.mem_append_right _ ho)
  stopped h := by
    by_cases hplan : ∀ o ∈ plan, granted o
    · rw [eval_bindE_ok answer (hp.done hplan)]
      obtain ⟨o, ho, hrefused⟩ := h
      rcases List.mem_append.mp ho with ho | ho
      · exact absurd (hplan o ho) hrefused
      · obtain ⟨e, u, he, hrun, hsame⟩ := hf.stopped ⟨o, ho, hrefused⟩
        exact ⟨e, u, he, hrun, hsame.trans hview⟩
    · obtain ⟨e, u, he, hrun, hsame⟩ := hp.stopped (refused_of_not_all hplan)
      exact ⟨e, u, he, eval_bindE_error answer hrun, hsame⟩

/-- First one operation that only reads. -/
theorem bind_one {o : Op} {a : α} {out : Except ε β}
    (hp : Performs answer granted failure view p s [o] (.ok a) s)
    (hf : Performs answer granted failure view (f a) s plan' out s') :
    Performs answer granted failure view (p >>= f) s (o :: plan') out s' := hp.bind rfl hf

/-- First a program without operations. -/
theorem bind_nil {a : α} {out : Except ε β}
    (hp : Performs answer granted failure view p s [] (.ok a) s)
    (hf : Performs answer granted failure view (f a) s plan' out s') :
    Performs answer granted failure view (p >>= f) s plan' out s' := hp.bind rfl hf

/-- Nothing follows a program that fails. -/
theorem bind_error {e : ε} (hp : Performs answer granted failure view p s plan (.error e) s') :
    Performs answer granted failure view (p >>= f) s plan (.error e) s' where
  done h := eval_bindE_error answer (hp.done h)
  stopped h := by
    obtain ⟨e', u, he, hrun, hsame⟩ := hp.stopped h
    exact ⟨e', u, he, eval_bindE_error answer hrun, hsame⟩

/-- Last a program without operations. -/
theorem andThen {a : α} {out : Except ε β}
    (hp : Performs answer granted failure view p s plan (.ok a) t)
    (hf : Performs answer granted failure view (f a) t [] out s') :
    Performs answer granted failure view (p >>= f) s plan out s' where
  done h := by rw [eval_bindE_ok answer (hp.done h), hf.eval_eq]
  stopped h := by
    obtain ⟨e, u, he, hrun, hsame⟩ := hp.stopped h
    exact ⟨e, u, he, eval_bindE_error answer hrun, hsame⟩

/-! ### Failing halfway -/

/-- One plan is never left halfway, unless its own end is a failure. -/
theorem not_failsHalfway {out : Except ε α} (h : Performs answer granted failure view p s plan out s')
    (hout : ∀ e, out = .error e → view s' = view s) :
    ¬ FailsHalfway answer failure view p s := by
  rintro ⟨e, _, herr, hview⟩
  by_cases hplan : ∀ o ∈ plan, granted o
  · rw [h.done hplan] at herr hview
    exact hview (hout e herr)
  · obtain ⟨e', u, _, hrun, hsame⟩ := h.stopped (refused_of_not_all hplan)
    rw [hrun] at hview
    exact hview hsame

/-- A first part that is refused something is not left halfway. -/
theorem not_failsHalfway_bind {out : Except ε α}
    (hp : Performs answer granted failure view p s plan out t)
    (hrefused : ∃ o ∈ plan, ¬ granted o) : ¬ FailsHalfway answer failure view (p >>= f) s := by
  rintro ⟨e, _, _, hview⟩
  obtain ⟨e', u, _, hrun, hsame⟩ := hp.stopped hrefused
  rw [eval_bindE_error answer hrun] at hview
  exact hview hsame

/-- After a program that only reads. -/
theorem failsHalfway_bind_iff {a : α} (hp : Performs answer granted failure view p s plan (.ok a) s) :
    FailsHalfway answer failure view (p >>= f) s ↔
      (∀ o ∈ plan, granted o) ∧ FailsHalfway answer failure view (f a) s := by
  by_cases hplan : ∀ o ∈ plan, granted o
  · simp only [FailsHalfway, eval_bindE_ok answer (hp.done hplan)]
    exact ⟨fun h => ⟨hplan, h⟩, And.right⟩
  · exact ⟨fun h => absurd h (hp.not_failsHalfway_bind (refused_of_not_all hplan)),
      fun h => absurd h.1 hplan⟩

/-- A program that writes and then one that may fail: it is left halfway exactly when the first takes
effect and the second fails. -/
theorem failsHalfway_iff {a : α} {out : Except ε β}
    (hp : Performs answer granted failure view p s plan (.ok a) t)
    (hf : Performs answer granted failure view (f a) t plan' out s')
    (hout : ∀ e, out = .error e → view s' = view t) :
    FailsHalfway answer failure view (p >>= f) s ↔
      (∀ o ∈ plan, granted o) ∧ view t ≠ view s ∧
        ((∃ o ∈ plan', ¬ granted o) ∨ ∃ e, failure e ∧ out = .error e) := by
  by_cases hplan : ∀ o ∈ plan, granted o
  · have hrun := eval_bindE_ok answer (f := f) (hp.done hplan)
    simp only [FailsHalfway, hrun]
    by_cases hplan' : ∀ o ∈ plan', granted o
    · have hnone : ¬ ∃ o ∈ plan', ¬ granted o := by
        push Not
        exact hplan'
      simp only [hf.done hplan', hnone, false_or]
      constructor
      · rintro ⟨e, he, herr, hview⟩
        exact ⟨hplan, fun hsame => hview ((hout e herr).trans hsame), e, he, herr⟩
      · rintro ⟨_, hview, e, he, herr⟩
        exact ⟨e, he, herr, fun hsame => hview ((hout e herr).symm.trans hsame)⟩
    · obtain ⟨e, u, he, hstop, hkept⟩ := hf.stopped (refused_of_not_all hplan')
      simp only [hstop]
      constructor
      · rintro ⟨_, _, _, hview⟩
        exact ⟨hplan, hkept ▸ hview, .inl (refused_of_not_all hplan')⟩
      · rintro ⟨_, hview, _⟩
        exact ⟨e, he, rfl, hkept ▸ hview⟩
  · exact ⟨fun h => absurd h (hp.not_failsHalfway_bind (refused_of_not_all hplan)),
      fun h => absurd h.1 hplan⟩

end Performs

/-- What follows a program without waiting and without failing does not matter. -/
theorem failsHalfway_andThen_iff {answer : (o : Op) → S → Reply o × S} {failure : ε → Prop}
    {view : S → V} {p : ExceptT ε (Prog Op Reply) α} {f : α → ExceptT ε (Prog Op Reply) β} {s : S}
    (hf : ∀ a s', p.run.eval answer s = (.ok a, s') → ∃ b, (f a).run = .done (.ok b)) :
    FailsHalfway answer failure view (p >>= f) s ↔ FailsHalfway answer failure view p s := by
  cases hrun : p.run.eval answer s with
  | mk r s' =>
      cases r with
      | ok a =>
          obtain ⟨b, hb⟩ := hf a s' hrun
          simp only [FailsHalfway, eval_bindE_ok answer hrun, hrun, hb, eval_done, reduceCtorEq,
            false_and, and_false, exists_false]
      | error e =>
          simp only [FailsHalfway, eval_bindE_error answer hrun, hrun, Except.error.injEq]

end Quantframe.Lib
