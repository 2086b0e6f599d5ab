import Mathlib.Logic.Function.Basic

/-!
# Programs over atomic operations

A program either returns or performs one operation and goes on with the reply. What an operation
does to the shared state, and in which order the operations of several programs take place, is
left to whoever runs it.
-/

namespace Quantframe.Lib

inductive Prog (Op : Type) (Reply : Op → Type) (α : Type) : Type
  | done (a : α)
  | op (o : Op) (next : Reply o → Prog Op Reply α)

/-- Which operations are allowed in a phase, and which phases a reply may lead to. -/
structure Protocol (Op : Type) (Reply : Op → Type) (Q : Type) where
  /-- Replies an operation can have. -/
  replies : (o : Op) → Reply o → Prop
  moves : Q → (o : Op) → Reply o → Q → Prop

namespace Prog

variable {Op : Type} {Reply : Op → Type} {α β ε Q S : Type}

def bind (p : Prog Op Reply α) (f : α → Prog Op Reply β) : Prog Op Reply β :=
  match p with
  | .done a => f a
  | .op o next => .op o fun r => (next r).bind f

instance : Monad (Prog Op Reply) where
  pure := .done
  bind := .bind

@[simp] theorem pure_eq (a : α) : (pure a : Prog Op Reply α) = .done a := rfl
@[simp] theorem done_bind (a : α) (f : α → Prog Op Reply β) : Prog.done a >>= f = f a := rfl
@[simp] theorem op_bind (o : Op) (next : Reply o → Prog Op Reply α) (f : α → Prog Op Reply β) :
    Prog.op o next >>= f = .op o fun r => next r >>= f := rfl

def perform (o : Op) : Prog Op Reply (Reply o) := .op o .done

/-- The operation a program is about to perform. -/
def next? : Prog Op Reply α → Option Op
  | .done _ => none
  | .op o _ => some o

/-! ### Programs and the protocol they keep to -/

section Follows

variable (P : Protocol Op Reply Q)

/-- Whatever the replies, the program keeps to the protocol from phase `q` and returns in `post`. -/
def Follows (p : Prog Op Reply α) (post : Q → α → Prop) (q : Q) : Prop :=
  match p with
  | .done a => post q a
  | .op o next => ∀ r, P.replies o r → ∃ q', P.moves q o r q' ∧ (next r).Follows post q'

variable {P} {p : Prog Op Reply α} {post post' : Q → α → Prop} {q : Q}

theorem Follows.mono (h : p.Follows P post q) (himp : ∀ q a, post q a → post' q a) :
    p.Follows P post' q := by
  induction p generalizing q with
  | done a => exact himp q a h
  | op o next ih =>
      intro r hr
      obtain ⟨q', hmove, hnext⟩ := h r hr
      exact ⟨q', hmove, ih r hnext⟩

theorem Follows.bind {f : α → Prog Op Reply β} {post : Q → β → Prop}
    (h : p.Follows P (fun q a => (f a).Follows P post q) q) : (p >>= f).Follows P post q := by
  induction p generalizing q with
  | done a => exact h
  | op o next ih =>
      intro r hr
      obtain ⟨q', hmove, hnext⟩ := h r hr
      exact ⟨q', hmove, ih r hnext⟩

theorem Follows.perform {o : Op} {post : Q → Reply o → Prop}
    (h : ∀ r, P.replies o r → ∃ q', P.moves q o r q' ∧ post q' r) : (perform o).Follows P post q := h

/-- The rule for the second of two fallible programs. -/
theorem Follows.bindE {p : ExceptT ε (Prog Op Reply) α} {f : α → ExceptT ε (Prog Op Reply) β}
    {post : Q → Except ε β → Prop}
    (h : p.run.Follows P (fun q r => (ExceptT.bindCont f r).Follows P post q) q) :
    (p >>= f).run.Follows P post q := Follows.bind h

end Follows

/-! ### One program by itself -/

/-- Runs a program alone; `answer` performs the operations. -/
def eval (answer : (o : Op) → S → Reply o × S) : Prog Op Reply α → S → α × S
  | .done a, s => (a, s)
  | .op o next, s => (next (answer o s).1).eval answer (answer o s).2

variable (answer : (o : Op) → S → Reply o × S)

@[simp] theorem eval_done (a : α) (s : S) : (Prog.done a : Prog Op Reply α).eval answer s = (a, s) :=
  rfl

@[simp] theorem eval_perform (o : Op) (s : S) : (perform o).eval answer s = answer o s := rfl

@[simp] theorem eval_bind (p : Prog Op Reply α) (f : α → Prog Op Reply β) (s : S) :
    (p >>= f).eval answer s = (f (p.eval answer s).1).eval answer (p.eval answer s).2 := by
  induction p generalizing s with
  | done a => rfl
  | op o next ih => exact ih _ _

/-- Two fallible programs, one after the other. -/
theorem eval_bindE (p : ExceptT ε (Prog Op Reply) α) (f : α → ExceptT ε (Prog Op Reply) β) (s : S) :
    (p >>= f).run.eval answer s =
      (match (p.run.eval answer s).1 with
        | .ok a => (f a).run.eval answer (p.run.eval answer s).2
        | .error e => (.error e, (p.run.eval answer s).2)) := by
  refine (eval_bind answer p.run _ s).trans ?_
  cases (p.run.eval answer s).1 with
  | ok a => rfl
  | error e => rfl

/-- A program that cannot fail, before a fallible one. -/
theorem eval_liftE (p : Prog Op Reply α) (f : α → ExceptT ε (Prog Op Reply) β) (s : S) :
    ((liftM p : ExceptT ε (Prog Op Reply) α) >>= f).run.eval answer s =
      (f (p.eval answer s).1).run.eval answer (p.eval answer s).2 := by
  refine (eval_bindE answer _ f s).trans ?_
  have hlift : (liftM p : ExceptT ε (Prog Op Reply) α).run.eval answer s =
      (.ok (p.eval answer s).1, (p.eval answer s).2) := eval_bind answer p _ s
  rw [hlift]

theorem eval_bindE_ok {p : ExceptT ε (Prog Op Reply) α} {f : α → ExceptT ε (Prog Op Reply) β}
    {s s' : S} {a : α} (h : p.run.eval answer s = (.ok a, s')) :
    (p >>= f).run.eval answer s = (f a).run.eval answer s' := by
  rw [eval_bindE, h]

theorem eval_bindE_error {p : ExceptT ε (Prog Op Reply) α} {f : α → ExceptT ε (Prog Op Reply) β}
    {s s' : S} {e : ε} (h : p.run.eval answer s = (.error e, s')) :
    (p >>= f).run.eval answer s = (.error e, s') := by
  rw [eval_bindE, h]

theorem eval_bindE_eq_ok {p : ExceptT ε (Prog Op Reply) α} {f : α → ExceptT ε (Prog Op Reply) β}
    {s t : S} {b : β} (h : (p >>= f).run.eval answer s = (.ok b, t)) :
    ∃ a s', p.run.eval answer s = (.ok a, s') ∧ (f a).run.eval answer s' = (.ok b, t) := by
  rcases hrun : p.run.eval answer s with ⟨e | a, s'⟩
  · rw [eval_bindE_error answer hrun] at h
    cases h
  · rw [eval_bindE_ok answer hrun] at h
    exact ⟨a, s', rfl, h⟩

/-! ### What a program leaves alone -/

/-- Every operation the program may perform is one of `p`. -/
def Uses (p : Op → Prop) : Prog Op Reply α → Prop
  | .done _ => True
  | .op o next => p o ∧ ∀ r, (next r).Uses p

section Uses

variable {p : Op → Prop} {V : Type}

theorem Uses.bind {q : Prog Op Reply α} {f : α → Prog Op Reply β} (hq : q.Uses p) (hf : ∀ a, (f a).Uses p) :
    (q >>= f).Uses p := by
  induction q with
  | done a => exact hf a
  | op o next ih => exact ⟨hq.1, fun r => ih r (hq.2 r)⟩

theorem Uses.bindE {q : ExceptT ε (Prog Op Reply) α} {f : α → ExceptT ε (Prog Op Reply) β}
    (hq : q.run.Uses p) (hf : ∀ a, (f a).run.Uses p) : (q >>= f).run.Uses p := by
  refine Uses.bind hq fun r => ?_
  cases r with
  | ok a => exact hf a
  | error e => trivial

/-- What none of its operations changes, the program does not change. -/
theorem Uses.kept {q : Prog Op Reply α} {view : S → V} (hq : q.Uses p)
    (hkept : ∀ o s, p o → view (answer o s).2 = view s) (s : S) : view (q.eval answer s).2 = view s := by
  induction q generalizing s with
  | done a => rfl
  | op o next ih => exact (ih _ (hq.2 _) _).trans (hkept o s hq.1)

end Uses

/-! ### Two programs in step -/

/-- The two perform the same operations as long as the replies are alike, and end in `post`. -/
inductive InStep (Alike : (o : Op) → Reply o → Reply o → Prop) (post : α → β → Prop) :
    Prog Op Reply α → Prog Op Reply β → Prop
  | done {a : α} {b : β} (h : post a b) : InStep Alike post (.done a) (.done b)
  | op {o : Op} {next : Reply o → Prog Op Reply α} {next' : Reply o → Prog Op Reply β}
      (h : ∀ r r', Alike o r r' → InStep Alike post (next r) (next' r')) :
      InStep Alike post (.op o next) (.op o next')

namespace InStep

variable {Alike : (o : Op) → Reply o → Reply o → Prop} {α' β' : Type}

/-- Two programs in step run from states that no reply tells apart. -/
theorem eval_same {post : α → β → Prop} {Same : S → S → Prop} {p : Prog Op Reply α} {q : Prog Op Reply β}
    (h : InStep Alike post p q)
    (hanswer : ∀ o s t, Same s t → Alike o (answer o s).1 (answer o t).1 ∧ Same (answer o s).2 (answer o t).2)
    {s t : S} (hst : Same s t) :
    post (p.eval answer s).1 (q.eval answer t).1 ∧ Same (p.eval answer s).2 (q.eval answer t).2 := by
  induction h generalizing s t with
  | done h => exact ⟨h, hst⟩
  | @op o _ _ _ ih =>
      obtain ⟨hreply, hnext⟩ := hanswer o s t hst
      exact ih _ _ hreply hnext

theorem bind {post : α' → β' → Prop} {p : Prog Op Reply α} {q : Prog Op Reply β} {f : α → Prog Op Reply α'}
    {g : β → Prog Op Reply β'} (h : InStep Alike (fun a b => InStep Alike post (f a) (g b)) p q) :
    InStep Alike post (p >>= f) (q >>= g) := by
  induction h with
  | done h => exact h
  | op _ ih => exact .op ih

theorem mono {post post' : α → β → Prop} {p : Prog Op Reply α} {q : Prog Op Reply β}
    (h : InStep Alike post p q) (himp : ∀ a b, post a b → post' a b) : InStep Alike post' p q := by
  induction h with
  | done h => exact .done (himp _ _ h)
  | op _ ih => exact .op ih

theorem perform {o : Op} {post : Reply o → Reply o → Prop} (h : ∀ r r', Alike o r r' → post r r') :
    InStep Alike post (Prog.perform o) (Prog.perform o) :=
  .op fun r r' hr => .done (h r r' hr)

end InStep

/-- Both have returned, in `R`, or both have failed. -/
def BothEnd (R : α → β → Prop) : Except ε α → Except ε β → Prop
  | .ok a, .ok b => R a b
  | .error _, .error _ => True
  | .ok _, .error _ | .error _, .ok _ => False

/-- Fallible programs in step. -/
def InStepE (Alike : (o : Op) → Reply o → Reply o → Prop) (R : α → β → Prop)
    (p : ExceptT ε (Prog Op Reply) α) (q : ExceptT ε (Prog Op Reply) β) : Prop :=
  InStep Alike (BothEnd R) p.run q.run

namespace InStepE

variable {Alike : (o : Op) → Reply o → Reply o → Prop} {α' β' : Type} {R : α → β → Prop}

theorem pure {a : α} {b : β} (h : R a b) :
    InStepE Alike R (Pure.pure a : ExceptT ε (Prog Op Reply) α) (Pure.pure b : ExceptT ε (Prog Op Reply) β) :=
  .done h

theorem mono {R' : α → β → Prop} {p : ExceptT ε (Prog Op Reply) α} {q : ExceptT ε (Prog Op Reply) β}
    (h : InStepE Alike R p q) (himp : ∀ a b, R a b → R' a b) : InStepE Alike R' p q := by
  refine InStep.mono h fun r r' hr => ?_
  cases r with
  | ok a =>
      cases r' with
      | ok b => exact himp a b hr
      | error e => cases hr
  | error e =>
      cases r' with
      | ok b => cases hr
      | error e' => trivial

theorem bind {R' : α' → β' → Prop} {p : ExceptT ε (Prog Op Reply) α} {q : ExceptT ε (Prog Op Reply) β}
    {f : α → ExceptT ε (Prog Op Reply) α'} {g : β → ExceptT ε (Prog Op Reply) β'}
    (h : InStepE Alike R p q) (hf : ∀ a b, R a b → InStepE Alike R' (f a) (g b)) :
    InStepE Alike R' (p >>= f) (q >>= g) := by
  refine InStep.bind (InStep.mono h fun r r' hr => ?_)
  cases r with
  | ok a =>
      cases r' with
      | ok b => exact hf a b hr
      | error e => cases hr
  | error e =>
      cases r' with
      | ok b => cases hr
      | error e' => exact .done trivial

end InStepE

end Prog

end Quantframe.Lib
