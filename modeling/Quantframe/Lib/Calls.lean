import Quantframe.Lib.Machine
import Quantframe.Lib.Prog

/-!
# Concurrent calls over one shared state

Calls are started, advance by one operation at a time in any order, and may be dropped at any
point, after which they never move again. `answer` performs an operation on the shared state; what
the outside decides (a fault, the result of a remote request) is a `Choice` carried by the label.
-/

namespace Quantframe.Lib

structure Running (C Op : Type) (Reply : Op → Type) (α : Type) where
  call : C
  rest : Prog Op Reply α
  live : Bool

structure Calls (S C Op : Type) (Reply : Op → Type) (α : Type) where
  shared : S
  calls : List (Running C Op Reply α)
  /-- Every operation performed so far, with the number of its call. -/
  log : List (Nat × (o : Op) × Reply o)

inductive CallLabel (C Choice : Type) where
  | start (c : C)
  | step (i : Nat) (choice : Choice)
  | drop (i : Nat)

namespace Calls

variable {S C Op Choice Q α : Type} {Reply : Op → Type}

/-- The next operation of call `i` is one of `p`. -/
def Next (s : Calls S C Op Reply α) (i : Nat) (p : Op → Bool) : Prop :=
  ∃ c o, s.calls[i]? = some c ∧ c.rest.next? = some o ∧ p o = true

def Live (s : Calls S C Op Reply α) (i : Nat) : Prop := ∃ c, s.calls[i]? = some c ∧ c.live = true

theorem next_iff {s : Calls S C Op Reply α} {i : Nat} {p : Op → Bool} :
    ((s.calls[i]?.bind fun c => c.rest.next?).any p = true) ↔ s.Next i p := by
  simp only [Option.any_eq_true, Option.bind_eq_some_iff, Next]
  constructor
  · rintro ⟨o, ⟨c, hi, ho⟩, hp⟩
    exact ⟨c, o, hi, ho, hp⟩
  · rintro ⟨c, o, hi, ho, hp⟩
    exact ⟨o, ⟨c, hi, ho⟩, hp⟩

instance (s : Calls S C Op Reply α) (i : Nat) (p : Op → Bool) : Decidable (s.Next i p) :=
  decidable_of_iff _ next_iff

section Step

variable (body : C → Prog Op Reply α) (answer : (o : Op) → Choice → S → Option (Reply o × S))

def init (shared : S) : Calls S C Op Reply α := ⟨shared, [], []⟩

def step : Machine (Calls S C Op Reply α) (CallLabel C Choice)
  | s, .start c => some { s with calls := s.calls ++ [⟨c, body c, true⟩] }
  | s, .step i choice =>
      match s.calls[i]? with
      | some ⟨c, .op o next, true⟩ =>
          (answer o choice s.shared).map fun (r, shared) =>
            { shared
              calls := s.calls.set i ⟨c, next r, true⟩
              log := s.log ++ [(i, ⟨o, r⟩)] }
      | _ => none
  | s, .drop i =>
      match s.calls[i]? with
      | some ⟨c, rest, true⟩ => some { s with calls := s.calls.set i ⟨c, rest, false⟩ }
      | _ => none

inductive Step (s : Calls S C Op Reply α) : CallLabel C Choice → Calls S C Op Reply α → Prop
  | start (c : C) : Step s (.start c) { s with calls := s.calls ++ [⟨c, body c, true⟩] }
  | step {i choice c o next r shared} (h : s.calls[i]? = some ⟨c, .op o next, true⟩)
      (ha : answer o choice s.shared = some (r, shared)) :
      Step s (.step i choice)
        { shared, calls := s.calls.set i ⟨c, next r, true⟩, log := s.log ++ [(i, ⟨o, r⟩)] }
  | drop {i c rest} (h : s.calls[i]? = some ⟨c, rest, true⟩) :
      Step s (.drop i) { s with calls := s.calls.set i ⟨c, rest, false⟩ }

variable {body answer}

theorem step_cases {s t : Calls S C Op Reply α} {l : CallLabel C Choice}
    (h : step body answer s l = some t) : Step body answer s l t := by
  cases l with
  | start c => cases h; exact .start c
  | step i choice =>
      simp only [step] at h
      split at h
      · next hi =>
          obtain ⟨⟨r, shared⟩, ha, ht⟩ := Option.map_eq_some_iff.mp h
          cases ht
          exact .step hi ha
      · cases h
  | drop i =>
      simp only [step] at h
      split at h
      · next hi => cases h; exact .drop hi
      · cases h

end Step

/-! ### Calls that keep to their moves

If every program keeps to its protocol and returns what is `settled` in its last phase, then in any
interleaving each call has a phase, and the phases change by the protocol's moves only. -/

section Phases

variable {body : C → Prog Op Reply α} {answer : (o : Op) → Choice → S → Option (Reply o × S)}
  {P : C → Protocol Op Reply Q} {settled : C → Q → α → Prop} {q₀ : Q}

/-- `φ i` is a phase from which the rest of call `i` keeps to its protocol. -/
structure Phased (P : C → Protocol Op Reply Q) (settled : C → Q → α → Prop) (q₀ : Q)
    (s : Calls S C Op Reply α) (φ : Nat → Q) : Prop where
  follows : ∀ (i : Nat) (c : Running C Op Reply α), s.calls[i]? = some c →
    c.rest.Follows (P c.call) (settled c.call) (φ i)
  fresh : ∀ i, s.calls.length ≤ i → φ i = q₀

/-- One step together with the move it makes. -/
inductive PhasedStep (body : C → Prog Op Reply α)
    (answer : (o : Op) → Choice → S → Option (Reply o × S))
    (P : C → Protocol Op Reply Q) (s : Calls S C Op Reply α) (φ : Nat → Q) :
    CallLabel C Choice → Calls S C Op Reply α → (Nat → Q) → Prop
  | start (c : C) : PhasedStep body answer P s φ (.start c)
      { s with calls := s.calls ++ [⟨c, body c, true⟩] } φ
  | step {i choice c o next r shared q} (h : s.calls[i]? = some ⟨c, .op o next, true⟩)
      (ha : answer o choice s.shared = some (r, shared)) (hr : (P c).replies o r) (hm : (P c).moves (φ i) o r q) :
      PhasedStep body answer P s φ (.step i choice)
        { shared, calls := s.calls.set i ⟨c, next r, true⟩, log := s.log ++ [(i, ⟨o, r⟩)] }
        (Function.update φ i q)
  | drop {i c rest} (h : s.calls[i]? = some ⟨c, rest, true⟩) :
      PhasedStep body answer P s φ (.drop i)
        { s with calls := s.calls.set i ⟨c, rest, false⟩ } φ

theorem Phased.init {shared : S} : Phased P settled q₀ (init shared : Calls S C Op Reply α) fun _ => q₀ :=
  ⟨fun _ _ h => (Option.some_ne_none _ (h.symm.trans List.getElem?_nil)).elim, fun _ _ => rfl⟩

/-- The next operation of a call is a move of its phase. -/
theorem Phased.next {s : Calls S C Op Reply α} {φ : Nat → Q} {i : Nat} {p : Op → Bool}
    (hs : Phased P settled q₀ s φ) (hreply : ∀ c o, ∃ r, (P c).replies o r) (h : s.Next i p) :
    ∃ c o r q, p o = true ∧ (P c).moves (φ i) o r q := by
  obtain ⟨⟨c, rest, live⟩, o, hi, ho, hp⟩ := h
  have hfollows := hs.follows i _ hi
  cases rest with
  | done a => cases ho
  | op o' next =>
      cases ho
      obtain ⟨r, hr⟩ := hreply c o
      obtain ⟨q, hmove, -⟩ := hfollows r hr
      exact ⟨c, o, r, q, hp, hmove⟩

/-- A call in a phase in which it may not return has a next operation. -/
theorem Phased.next_of_unsettled {s : Calls S C Op Reply α} {φ : Nat → Q} {i : Nat} {p : Op → Bool}
    {c : Running C Op Reply α} (hs : Phased P settled q₀ s φ) (hreply : ∀ c o, ∃ r, (P c).replies o r)
    (hi : s.calls[i]? = some c) (hq : ∀ a, ¬settled c.call (φ i) a)
    (hp : ∀ o r q, (P c.call).moves (φ i) o r q → p o = true) : s.Next i p := by
  obtain ⟨c, rest, live⟩ := c
  have hfollows := hs.follows i _ hi
  cases rest with
  | done a => exact absurd hfollows (hq a)
  | op o next =>
      obtain ⟨r, hr⟩ := hreply c o
      obtain ⟨q, hmove, -⟩ := hfollows r hr
      exact ⟨_, o, hi, rfl, hp o r q hmove⟩

theorem getElem?_lt {s : Calls S C Op Reply α} {i : Nat} {c : Running C Op Reply α}
    (h : s.calls[i]? = some c) : i < s.calls.length := by
  obtain ⟨hlt, -⟩ := List.getElem?_eq_some_iff.mp h
  exact hlt

/-- The calls after one of them has been replaced. -/
theorem getElem?_set_cases {l : List (Running C Op Reply α)} {i j : Nat} {new c : Running C Op Reply α}
    (h : (l.set i new)[j]? = some c) : (j = i ∧ c = new) ∨ (j ≠ i ∧ l[j]? = some c) := by
  rw [List.getElem?_set] at h
  split at h
  · next hij =>
      split at h
      · cases h
        exact .inl ⟨hij.symm, rfl⟩
      · cases h
  · next hij => exact .inr ⟨Ne.symm hij, h⟩

/-- The calls after one has been started. -/
theorem getElem?_append_cases {l : List (Running C Op Reply α)} {j : Nat} {new c : Running C Op Reply α}
    (h : (l ++ [new])[j]? = some c) : (j = l.length ∧ c = new) ∨ l[j]? = some c := by
  rw [List.getElem?_append] at h
  split at h
  · exact .inr h
  · next hj =>
      rcases Nat.eq_or_lt_of_le (Nat.le_of_not_lt hj) with heq | hlt
      · subst heq
        rw [Nat.sub_self] at h
        cases h
        exact .inl ⟨rfl, rfl⟩
      · rw [List.getElem?_eq_none (Nat.sub_pos_of_lt hlt)] at h
        cases h

section Set

variable {s : Calls S C Op Reply α} {shared : S} {log : List (Nat × (o : Op) × Reply o)} {i j : Nat}
  {c c' : Running C Op Reply α}

/-- A call that has been replaced by what is left of it is the call it was. -/
theorem call_of_set (hi : s.calls[i]? = some c) {d : Running C Op Reply α}
    (h : (s.calls.set i c')[j]? = some d) (hc : c'.call = c.call) :
    ∃ d', s.calls[j]? = some d' ∧ d'.call = d.call := by
  rcases getElem?_set_cases h with ⟨rfl, rfl⟩ | ⟨-, hd⟩
  · exact ⟨c, hi, hc.symm⟩
  · exact ⟨d, hd, rfl⟩

/-- Whatever happens, a call stays the call it is. -/
theorem call_kept {t : Calls S C Op Reply α} {l : CallLabel C Choice}
    (h : Calls.step body answer s l = some t) (hi : s.calls[i]? = some c) :
    ∃ d, t.calls[i]? = some d ∧ d.call = c.call := by
  have hset : ∀ {k : Nat} {old new : Running C Op Reply α}, s.calls[k]? = some old →
      new.call = old.call → ∃ d, (s.calls.set k new)[i]? = some d ∧ d.call = c.call := by
    intro k old new hk hcall
    by_cases hki : k = i
    · subst hki
      cases hk.symm.trans hi
      exact ⟨new, List.getElem?_set_self (getElem?_lt hk), hcall⟩
    · exact ⟨c, (List.getElem?_set_ne hki).trans hi, rfl⟩
  cases step_cases h with
  | start => exact ⟨c, (List.getElem?_append_left (getElem?_lt hi)).trans hi, rfl⟩
  | step hk | drop hk => exact hset hk rfl

theorem live_set (hi : s.calls[i]? = some c) (hc : c'.live = true → c.live = true)
    (h : Live ⟨shared, s.calls.set i c', log⟩ j) : s.Live j := by
  obtain ⟨d, hd, hlive⟩ := h
  rcases getElem?_set_cases hd with ⟨rfl, rfl⟩ | ⟨-, hd⟩
  · exact ⟨c, hi, hc hlive⟩
  · exact ⟨d, hd, hlive⟩

theorem live_set_ne (hji : j ≠ i) (h : s.Live j) : Live ⟨shared, s.calls.set i c', log⟩ j := by
  obtain ⟨d, hd, hlive⟩ := h
  exact ⟨d, (List.getElem?_set_ne (Ne.symm hji)).trans hd, hlive⟩

end Set

theorem Phased.step (hbody : ∀ c, (body c).Follows (P c) (settled c) q₀)
    (hreplies : ∀ c o choice shared r shared', answer o choice shared = some (r, shared') → (P c).replies o r)
    {s t : Calls S C Op Reply α} {φ : Nat → Q} {l : CallLabel C Choice} (hs : Phased P settled q₀ s φ)
    (h : Calls.step body answer s l = some t) :
    ∃ φ', PhasedStep body answer P s φ l t φ' ∧ Phased P settled q₀ t φ' := by
  cases step_cases h with
  | start c =>
      refine ⟨φ, .start c, ⟨?_, ?_⟩⟩
      · intro j d hj
        rcases getElem?_append_cases hj with ⟨rfl, rfl⟩ | hj
        · rw [hs.fresh _ (Nat.le_refl _)]
          exact hbody c
        · exact hs.follows j d hj
      · intro j hj
        rw [List.length_append] at hj
        exact hs.fresh j (Nat.le_of_succ_le hj)
  | @step i choice c o next r shared hi ha =>
      have hr := hreplies c o choice _ r shared ha
      obtain ⟨q, hm, hnext⟩ := hs.follows i _ hi r hr
      refine ⟨_, .step hi ha hr hm, ⟨?_, ?_⟩⟩
      · intro j d hj
        rcases getElem?_set_cases hj with ⟨rfl, rfl⟩ | ⟨hne, hj⟩
        · rw [Function.update_self]
          exact hnext
        · rw [Function.update_of_ne hne]
          exact hs.follows j d hj
      · intro j hj
        rw [List.length_set] at hj
        rw [Function.update_of_ne (Nat.ne_of_gt (Nat.lt_of_lt_of_le (getElem?_lt hi) hj))]
        exact hs.fresh j hj
  | @drop i c rest hi =>
      refine ⟨φ, .drop hi, ⟨?_, ?_⟩⟩
      · intro j d hj
        rcases getElem?_set_cases hj with ⟨rfl, rfl⟩ | ⟨_, hj⟩
        · have hrest := hs.follows j ⟨c, rest, true⟩ hi
          exact hrest
        · exact hs.follows j d hj
      · intro j hj
        rw [List.length_set] at hj
        exact hs.fresh j hj

/-- The run rule: an invariant over the shared state and the phases. -/
theorem phased_invariant (hbody : ∀ c, (body c).Follows (P c) (settled c) q₀)
    (hreplies : ∀ c o choice shared r shared', answer o choice shared = some (r, shared') → (P c).replies o r)
    {Allowed : Calls S C Op Reply α → CallLabel C Choice → Prop}
    {Inv : Calls S C Op Reply α → (Nat → Q) → Prop}
    (hstep : ∀ (s t : Calls S C Op Reply α) (φ φ' : Nat → Q) (l : CallLabel C Choice),
      Phased P settled q₀ s φ → Phased P settled q₀ t φ' → Inv s φ → Allowed s l →
        Calls.step body answer s l = some t → PhasedStep body answer P s φ l t φ' → Inv t φ')
    {s t : Calls S C Op Reply α} {φ : Nat → Q} {ls : List (CallLabel C Choice)}
    (run : Trace (Calls.step body answer) s ls t) (ha : Along (Calls.step body answer) Allowed s ls)
    (hs : Phased P settled q₀ s φ) (hi : Inv s φ) : ∃ φ', Phased P settled q₀ t φ' ∧ Inv t φ' := by
  have hnext : ∀ (a : Calls S C Op Reply α) (l : CallLabel C Choice) (b : Calls S C Op Reply α),
      (∃ ψ, Phased P settled q₀ a ψ ∧ Inv a ψ) → Allowed a l → Calls.step body answer a l = some b →
        ∃ ψ, Phased P settled q₀ b ψ ∧ Inv b ψ := by
    rintro a l b ⟨ψ, hψ, hinv⟩ hallow hstep'
    obtain ⟨ψ', hmove, hψ'⟩ := hψ.step hbody hreplies hstep'
    exact ⟨ψ', hψ', hstep a b ψ ψ' l hψ hψ' hinv hallow hstep' hmove⟩
  exact run.invariant_along hnext ha ⟨φ, hs, hi⟩

end Phases

end Calls

end Quantframe.Lib
