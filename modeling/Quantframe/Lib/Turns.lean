import Mathlib.Data.List.Forall2
import Mathlib.Logic.Function.Iterate
import Quantframe.Lib.Prog

/-!
# A store shared with programs that act in turns

Some programs run one after the other, one operation at a time, and a client acts on the same store. Before
each statement of the client they get a turn, and how many operations they perform in it is anyone's choice.
-/

namespace Quantframe.Lib

variable {C Op S X α β : Type} {Reply : Op → Type}

/-- Programs that run one after the other, each in its own circumstances. -/
abbrev Line (C Op : Type) (Reply : Op → Type) := List (C × Prog Op Reply Unit)

namespace Line

variable (answer : C → (o : Op) → S → Reply o × S)

/-- The next operation of the first program; one that has returned leaves the line. -/
def advance : Line C Op Reply × S → Line C Op Reply × S
  | ([], s) => ([], s)
  | ((_, .done _) :: rest, s) => (rest, s)
  | ((c, .op o next) :: rest, s) => ((c, next (answer c o s).1) :: rest, (answer c o s).2)

/-- The store once every program has returned. -/
def finish : Line C Op Reply → S → S
  | [], s => s
  | (c, p) :: rest, s => finish rest (p.eval (answer c) s).2

theorem finish_advance (x : Line C Op Reply × S) :
    finish answer (advance answer x).1 (advance answer x).2 = finish answer x.1 x.2 := by
  rcases x with ⟨_ | ⟨⟨c, _ | ⟨o, next⟩⟩, rest⟩, s⟩
  · rfl
  · rfl
  · rfl

theorem finish_iterate (n : Nat) (x : Line C Op Reply × S) :
    finish answer ((advance answer)^[n] x).1 ((advance answer)^[n] x).2 = finish answer x.1 x.2 := by
  induction n generalizing x with
  | zero => rfl
  | succ n ih => exact (ih _).trans (finish_advance answer x)

/-- What every operation keeps of the store, any number of them keep. -/
theorem iterate_keeps {I : S → Prop} (hanswer : ∀ c o s, I s → I (answer c o s).2) (n : Nat)
    {x : Line C Op Reply × S} (h : I x.2) : I ((advance answer)^[n] x).2 := by
  have hstep : ∀ x : Line C Op Reply × S, I x.2 → I (advance answer x).2 := by
    rintro ⟨_ | ⟨⟨c, _ | ⟨o, next⟩⟩, rest⟩, s⟩ hs
    · exact hs
    · exact hs
    · exact hanswer c o s hs
  induction n generalizing x with
  | zero => exact h
  | succ n ih => exact ih (hstep x h)

/-! ### Two lines in step -/

/-- The same circumstances, and programs in step. -/
def InStep (Alike : (o : Op) → Reply o → Reply o → Prop) : Line C Op Reply → Line C Op Reply → Prop :=
  List.Forall₂ fun p q => p.1 = q.1 ∧ Prog.InStep Alike (fun _ _ => True) p.2 q.2

variable {answer} {Alike : (o : Op) → Reply o → Reply o → Prop} {Same : S → S → Prop}

/-- Stores that no reply tells apart stay so. -/
theorem advance_same
    (hanswer : ∀ c o s t, Same s t → Alike o (answer c o s).1 (answer c o t).1 ∧ Same (answer c o s).2 (answer c o t).2)
    {x y : Line C Op Reply × S} (h : InStep Alike x.1 y.1 ∧ Same x.2 y.2) :
    InStep Alike (advance answer x).1 (advance answer y).1 ∧ Same (advance answer x).2 (advance answer y).2 := by
  obtain ⟨line, s⟩ := x
  obtain ⟨line', t⟩ := y
  obtain ⟨hline, hst⟩ := h
  cases hline with
  | nil => exact ⟨.nil, hst⟩
  | @cons p q rest rest' hpq hrest =>
      obtain ⟨c, p⟩ := p
      obtain ⟨c', q⟩ := q
      obtain ⟨rfl, hpq⟩ := hpq
      cases hpq with
      | done => exact ⟨hrest, hst⟩
      | @op o next next' hnext =>
          obtain ⟨hreply, hafter⟩ := hanswer c o s t hst
          exact ⟨.cons ⟨rfl, hnext _ _ hreply⟩ hrest, hafter⟩

theorem iterate_same
    (hanswer : ∀ c o s t, Same s t → Alike o (answer c o s).1 (answer c o t).1 ∧ Same (answer c o s).2 (answer c o t).2)
    (n : Nat) {x y : Line C Op Reply × S} (h : InStep Alike x.1 y.1 ∧ Same x.2 y.2) :
    InStep Alike ((advance answer)^[n] x).1 ((advance answer)^[n] y).1 ∧
      Same ((advance answer)^[n] x).2 ((advance answer)^[n] y).2 := by
  induction n generalizing x y with
  | zero => exact h
  | succ n ih => exact ih (advance_same hanswer h)

theorem finish_same
    (hanswer : ∀ c o s t, Same s t → Alike o (answer c o s).1 (answer c o t).1 ∧ Same (answer c o s).2 (answer c o t).2)
    {line line' : Line C Op Reply} {s t : S} (hline : InStep Alike line line') (hst : Same s t) :
    Same (finish answer line s) (finish answer line' t) := by
  induction hline generalizing s t with
  | nil => exact hst
  | @cons p q rest rest' hpq _ ih =>
      obtain ⟨c, p⟩ := p
      obtain ⟨c', q⟩ := q
      obtain ⟨rfl, hpq⟩ := hpq
      exact ih (hpq.eval_same (answer c) (hanswer c) hst).2

end Line

/-- A store that others act on, and what only the client sees. -/
structure Shared (C Op : Type) (Reply : Op → Type) (S X : Type) where
  store : S
  line : Line C Op Reply
  /-- How many operations the line performs before each next statement of the client. -/
  turns : List Nat
  own : X

namespace Shared

variable (answer : C → (o : Op) → S → Reply o × S)

/-- The others take their turn. -/
def giveWay (s : Shared C Op Reply S X) : Shared C Op Reply S X :=
  let after := (Line.advance answer)^[s.turns.headD 0] (s.line, s.store)
  { s with store := after.2, line := after.1, turns := s.turns.tail }

/-- A statement of the client. -/
def inTurn (q : Shared C Op Reply S X → α × Shared C Op Reply S X) (s : Shared C Op Reply S X) :
    α × Shared C Op Reply S X := q (s.giveWay answer)

/-- A statement about what only the client sees. -/
def alone (q : X → α × X) (s : Shared C Op Reply S X) : α × Shared C Op Reply S X :=
  ((q s.own).1, { s with own := (q s.own).2 })

@[simp] theorem giveWay_own (s : Shared C Op Reply S X) : (s.giveWay answer).own = s.own := rfl

/-- What the line's operations keep of the store holds after its turn. -/
theorem giveWay_keeps {I : S → Prop} (hanswer : ∀ c o s, I s → I (answer c o s).2)
    {s : Shared C Op Reply S X} (h : I s.store) : I (s.giveWay answer).store :=
  Line.iterate_keeps answer hanswer _ h

end Shared

end Quantframe.Lib
