import Mathlib.Data.List.Basic

/-!
# Programs with a state that may fail

A failure keeps what the program has done to the state before it. `wp` is the weakest precondition of a
program, for its returns and its failures alike.
-/

namespace Quantframe.Lib

abbrev Effect (ε S α : Type) := ExceptT ε (StateM S) α

namespace Effect

variable {ε S α β : Type}

/-- How a run from a state ends. -/
def exec (m : Effect ε S α) (s : S) : Except ε α × S := m.run.run s

theorem exec_eq {m : Effect ε S α} {s : S} {r : Except ε α} (h : (m.exec s).1 = r) :
    m.exec s = (r, (m.exec s).2) := by
  rw [← h]

def act (f : S → α × S) : Effect ε S α := ExceptT.lift (fun s => f s)

def change (f : S → S) : Effect ε S Unit := act fun s => ((), f s)

def read (f : S → α) : Effect ε S α := act fun s => (f s, s)

def fail (e : ε) : Effect ε S α := ExceptT.mk (pure (.error e))

/-- The outcome of a program as a value. -/
def attempt (m : Effect ε S α) : Effect ε S (Except ε α) := ExceptT.lift m.run

/-- A program for each entry of a list, in order. -/
def each (l : List α) (f : α → Effect ε S Unit) : Effect ε S Unit :=
  match l with
  | [] => pure ()
  | a :: l => do
      f a
      each l f

/-- The same until `stop` says so; whether it did. -/
def eachUntil (stop : Effect ε S Bool) (l : List α) (f : α → Effect ε S Unit) : Effect ε S Bool :=
  match l with
  | [] => pure false
  | a :: l => do
      if ← stop then pure true
      else
        f a
        eachUntil stop l f

/-- The run of `m` from `s` ends in `Q`. -/
def wp (m : Effect ε S α) (Q : Except ε α → S → Prop) (s : S) : Prop := Q (m.exec s).1 (m.exec s).2

section Rules

variable {m : Effect ε S α} {f : α → Effect ε S β} {Q Q' : Except ε α → S → Prop} {s : S}

theorem wp_mono (h : m.wp Q s) (himp : ∀ r t, Q r t → Q' r t) : m.wp Q' s := himp _ _ h

theorem exec_of_wp {r : Except ε α} {t : S} (h : m.wp Q s) (hrun : m.exec s = (r, t)) : Q r t := by
  rw [wp, hrun] at h
  exact h

theorem wp_and (h : m.wp Q s) (h' : m.wp Q' s) : m.wp (fun r t => Q r t ∧ Q' r t) s := ⟨h, h'⟩

/-- What a program is followed by. -/
def next (f : α → Effect ε S β) (Q : Except ε β → S → Prop) (r : Except ε α) (t : S) : Prop :=
  match r with
  | .ok a => (f a).wp Q t
  | .error e => Q (.error e) t

@[simp] theorem next_ok {a : α} {Q : Except ε β → S → Prop} {t : S} :
    next f Q (.ok a) t = (f a).wp Q t := rfl

@[simp] theorem next_error {e : ε} {Q : Except ε β → S → Prop} {t : S} :
    next f Q (.error e) t = Q (.error e) t := rfl

@[simp] theorem wp_pure {a : α} : (pure a : Effect ε S α).wp Q s ↔ Q (.ok a) s := Iff.rfl

@[simp] theorem wp_fail {e : ε} : (fail e : Effect ε S α).wp Q s ↔ Q (.error e) s := Iff.rfl

@[simp] theorem wp_act {g : S → α × S} : (act g : Effect ε S α).wp Q s ↔ Q (.ok (g s).1) (g s).2 := Iff.rfl

@[simp] theorem wp_change {g : S → S} {Q : Except ε Unit → S → Prop} :
    (change g : Effect ε S Unit).wp Q s ↔ Q (.ok ()) (g s) := Iff.rfl

@[simp] theorem wp_read {g : S → α} : (read g : Effect ε S α).wp Q s ↔ Q (.ok (g s)) s := Iff.rfl

@[simp] theorem wp_attempt {Q : Except ε (Except ε α) → S → Prop} :
    m.attempt.wp Q s ↔ m.wp (fun r t => Q (.ok r) t) s := Iff.rfl

theorem exec_bind (m : Effect ε S α) (f : α → Effect ε S β) (s : S) :
    (m >>= f).exec s =
      match (m.exec s).1 with
      | .ok a => (f a).exec (m.exec s).2
      | .error e => (.error e, (m.exec s).2) := by
  have hbind : (m >>= f).exec s = (ExceptT.bindCont f (m.exec s).1).run (m.exec s).2 := rfl
  rw [hbind]
  cases (m.exec s).1 with
  | ok a => rfl
  | error e => rfl

@[simp] theorem wp_bind {Q : Except ε β → S → Prop} : (m >>= f).wp Q s ↔ m.wp (next f Q) s := by
  rw [wp, wp, exec_bind]
  cases (m.exec s).1 with
  | ok a => rfl
  | error e => rfl

/-- What the first program establishes, however it ends, the second may use. -/
theorem wp_seq {I : S → Prop} {Q : Except ε β → S → Prop} (hm : m.wp (fun _ t => I t) s)
    (hf : ∀ a t, I t → (f a).wp Q t) (hfail : ∀ e t, I t → Q (.error e) t) : (m >>= f).wp Q s := by
  rw [wp_bind]
  refine wp_mono hm fun r t ht => ?_
  cases r with
  | ok a => exact hf a t ht
  | error e => exact hfail e t ht

@[simp] theorem wp_map {g : α → β} {Q : Except ε β → S → Prop} :
    (g <$> m).wp Q s ↔ m.wp (fun r t => Q (r.map g) t) s := by
  rw [← bind_pure_comp, wp_bind]
  constructor
  · intro h
    refine wp_mono h fun r t ht => ?_
    cases r with
    | ok a => exact ht
    | error e => exact ht
  · intro h
    refine wp_mono h fun r t ht => ?_
    cases r with
    | ok a => exact ht
    | error e => exact ht

@[simp] theorem wp_ite {c : Prop} [Decidable c] {m' : Effect ε S α} :
    (if c then m else m').wp Q s ↔ (c → m.wp Q s) ∧ (¬ c → m'.wp Q s) := by
  by_cases hc : c
  · simp [hc]
  · simp [hc]

/-- What each entry of a list does to the state, all of them do, when none fails. -/
theorem wp_each {l : List α} {f : α → Effect ε S Unit} {R : List α → S → S → Prop} (hnil : ∀ s, R [] s s)
    (hcons : ∀ a l s t u, R [a] s t → R l t u → R (a :: l) s u)
    (hf : ∀ a ∈ l, ∀ s, (f a).wp (fun r t => r = .ok () ∧ R [a] s t) s) (s : S) :
    (each l f).wp (fun r t => r = .ok () ∧ R l s t) s := by
  induction l generalizing s with
  | nil => exact ⟨rfl, hnil s⟩
  | cons a l ih =>
      rw [each, wp_bind]
      refine wp_mono (hf a List.mem_cons_self s) ?_
      rintro r t ⟨rfl, ht⟩
      rw [next_ok]
      refine wp_mono (ih (fun b hb => hf b (List.mem_cons_of_mem _ hb)) t) ?_
      rintro r u ⟨rfl, hu⟩
      exact ⟨rfl, hcons a l s t u ht hu⟩

end Rules

/-! ### What a program keeps -/

/-- However it ends, the program keeps `I`. -/
def Keeps (I : S → Prop) (m : Effect ε S α) : Prop := ∀ s, I s → m.wp (fun _ t => I t) s

section Keeps

variable {I : S → Prop} {m : Effect ε S α} {f : α → Effect ε S β}

theorem Keeps.pure (a : α) : Keeps I (pure a : Effect ε S α) := fun _ h => h

theorem Keeps.fail (e : ε) : Keeps I (Effect.fail e : Effect ε S α) := fun _ h => h

theorem Keeps.act {g : S → α × S} (h : ∀ s, I s → I (g s).2) : Keeps I (Effect.act g : Effect ε S α) := h

theorem Keeps.change {g : S → S} (h : ∀ s, I s → I (g s)) : Keeps I (Effect.change g : Effect ε S Unit) := h

theorem Keeps.read (g : S → α) : Keeps I (Effect.read g : Effect ε S α) := fun _ h => h

theorem Keeps.bind (hm : Keeps I m) (hf : ∀ a, Keeps I (f a)) : Keeps I (m >>= f) := by
  intro s hs
  rw [wp_bind]
  refine wp_mono (hm s hs) fun r t ht => ?_
  cases r with
  | ok a => exact hf a t ht
  | error e => exact ht

theorem Keeps.map {g : α → β} (hm : Keeps I m) : Keeps I (g <$> m) := by
  rw [← bind_pure_comp]
  exact hm.bind fun a => .pure (g a)

theorem Keeps.attempt (hm : Keeps I m) : Keeps I m.attempt := hm

theorem Keeps.ite {c : Prop} [Decidable c] {m' : Effect ε S α} (h : c → Keeps I m) (h' : ¬ c → Keeps I m') :
    Keeps I (if c then m else m') := by
  by_cases hc : c
  · rw [if_pos hc]
    exact h hc
  · rw [if_neg hc]
    exact h' hc

theorem Keeps.each {l : List α} {f : α → Effect ε S Unit} (hf : ∀ a ∈ l, Keeps I (f a)) :
    Keeps I (each l f) := by
  induction l with
  | nil => exact .pure ()
  | cons a l ih =>
      exact (hf a List.mem_cons_self).bind fun _ => ih fun b hb => hf b (List.mem_cons_of_mem _ hb)

theorem Keeps.eachUntil {stop : Effect ε S Bool} {l : List α} {f : α → Effect ε S Unit}
    (hstop : Keeps I stop) (hf : ∀ a ∈ l, Keeps I (f a)) : Keeps I (eachUntil stop l f) := by
  induction l with
  | nil => exact .pure false
  | cons a l ih =>
      refine hstop.bind fun stopped => .ite (fun _ => .pure true) fun _ => ?_
      exact (hf a List.mem_cons_self).bind fun _ => ih fun b hb => hf b (List.mem_cons_of_mem _ hb)

/-- An invariant that tells which entries are done, over a list that may be cut short. -/
theorem wp_eachUntil {I : List α → S → Prop} {stop : Effect ε S Bool} {l : List α} {f : α → Effect ε S Unit}
    (hstop : ∀ done, Keeps (I done) stop)
    (hf : ∀ done a rest, l = done ++ a :: rest → ∀ s, I done s → (f a).wp (fun _ t => I (done ++ [a]) t) s)
    {s : S} (h : I [] s) : (eachUntil stop l f).wp (fun _ t => ∃ done, done <+: l ∧ I done t) s := by
  have hgo : ∀ rest done s, l = done ++ rest → I done s →
      (eachUntil stop rest f).wp (fun _ t => ∃ done, done <+: l ∧ I done t) s := by
    intro rest
    induction rest with
    | nil => exact fun done s hl hs => ⟨done, ⟨[], hl.symm⟩, hs⟩
    | cons a rest ih =>
        intro done s hl hs
        have hdone : done <+: l := ⟨a :: rest, hl.symm⟩
        have hl' : l = done ++ [a] ++ rest := by rw [hl, List.append_assoc, List.singleton_append]
        refine wp_seq (hstop done s hs) (fun stopped t ht => ?_) fun _ t ht => ⟨done, hdone, ht⟩
        rw [wp_ite]
        refine ⟨fun _ => ⟨done, hdone, ht⟩, fun _ => ?_⟩
        exact wp_seq (hf done a rest hl t ht) (fun _ u hu => ih (done ++ [a]) u hl' hu)
          fun _ u hu => ⟨done ++ [a], ⟨rest, hl'.symm⟩, hu⟩
  exact hgo l [] s rfl h

end Keeps

end Effect

end Quantframe.Lib
