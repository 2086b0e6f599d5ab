import Mathlib.Data.List.Basic

/-!
# Guarded machines and their finite runs

A machine is a partial, deterministic transition function: `none` says that the label is not
enabled in the state. Everything nondeterministic (which party moves, what the outside answers)
is carried by the label, so one label list names exactly one run.
-/

namespace Quantframe.Lib

universe u v

abbrev Machine (S : Type u) (L : Type v) := S → L → Option S

variable {S : Type u} {L : Type v}

/-- The finite runs of a machine, with the labels taken. -/
inductive Trace (step : Machine S L) : S → List L → S → Prop
  | nil (s : S) : Trace step s [] s
  | cons {s m t : S} {l : L} {ls : List L} :
      step s l = some m → Trace step m ls t → Trace step s (l :: ls) t

/-- Executable counterpart of `Trace`. -/
def runAll (step : Machine S L) : S → List L → Option S
  | s, [] => some s
  | s, l :: ls => (step s l).bind fun m => runAll step m ls

theorem runAll_eq_some {step : Machine S L} {s t : S} {ls : List L} :
    runAll step s ls = some t ↔ Trace step s ls t := by
  induction ls generalizing s with
  | nil =>
      constructor
      · intro h
        cases h
        exact .nil _
      · intro h
        cases h
        rfl
  | cons l ls ih =>
      simp only [runAll, Option.bind_eq_some_iff, ih]
      constructor
      · rintro ⟨m, hm, ht⟩
        exact .cons hm ht
      · intro h
        cases h with
        | cons hm ht => exact ⟨_, hm, ht⟩

/-- The state a list of enabled labels leads to. -/
def replay (step : Machine S L) (s : S) (ls : List L) : S := (runAll step s ls).getD s

theorem trace_replay {step : Machine S L} {s : S} {ls : List L}
    (h : (runAll step s ls).isSome = true) : Trace step s ls (replay step s ls) := by
  obtain ⟨t, ht⟩ := Option.isSome_iff_exists.mp h
  rw [replay, ht]
  exact runAll_eq_some.mp ht

namespace Trace

variable {step : Machine S L}

theorem append {s m t : S} {ls ks : List L} (h : Trace step s ls m) (k : Trace step m ks t) :
    Trace step s (ls ++ ks) t := by
  induction h with
  | nil s => exact k
  | cons first _ ih => exact .cons first (ih k)

theorem single {s t : S} {l : L} (h : step s l = some t) : Trace step s [l] t := .cons h (.nil t)

theorem split {s t : S} {ls ks : List L} (h : Trace step s (ls ++ ks) t) :
    ∃ m, Trace step s ls m ∧ Trace step m ks t := by
  induction ls generalizing s with
  | nil => exact ⟨s, .nil s, h⟩
  | cons l ls ih =>
      cases h with
      | cons first rest =>
          obtain ⟨m, hm, ht⟩ := ih rest
          exact ⟨m, .cons first hm, ht⟩

theorem unique {s t u : S} {ls : List L} (h : Trace step s ls t) (k : Trace step s ls u) : t = u := by
  have ht := runAll_eq_some.mpr h
  have hu := runAll_eq_some.mpr k
  exact Option.some.inj (ht.symm.trans hu)

/-- What one enabled step preserves, a whole run preserves. -/
theorem invariant {Inv : S → Prop} (hstep : ∀ s l t, Inv s → step s l = some t → Inv t)
    {s t : S} {ls : List L} (h : Trace step s ls t) (hs : Inv s) : Inv t := by
  induction h with
  | nil s => exact hs
  | cons first _ ih => exact ih (hstep _ _ _ hs first)

/-- What one step preserves of a state and the labels before it. -/
theorem history {Inv : List L → S → Prop}
    (hstep : ∀ before s l t, Inv before s → step s l = some t → Inv (before ++ [l]) t)
    {s t : S} {ls before : List L} (h : Trace step s ls t) (hs : Inv before s) : Inv (before ++ ls) t := by
  induction h generalizing before with
  | nil s => rwa [List.append_nil]
  | cons first _ ih =>
      have hrest := ih (hstep _ _ _ _ hs first)
      rwa [List.append_assoc, List.singleton_append] at hrest

end Trace

/-- Every step of the run from `s` along `ls` is taken in a state where it is allowed. -/
def Along (step : Machine S L) (Allowed : S → L → Prop) : S → List L → Prop
  | _, [] => True
  | s, l :: ls => Allowed s l ∧ ∀ m, step s l = some m → Along step Allowed m ls

theorem Along.append {step : Machine S L} {Allowed : S → L → Prop} {s m : S} {ls ks : List L}
    (h : Along step Allowed s (ls ++ ks)) (t : Trace step s ls m) : Along step Allowed m ks := by
  induction t with
  | nil s => exact h
  | cons first _ ih => exact ih (h.2 _ first)

/-- What holds of the labels of a run holds at each of its steps. -/
theorem Along.and_mem {step : Machine S L} {Allowed : S → L → Prop} {P : L → Prop} {s : S}
    {ls : List L} (h : Along step Allowed s ls) (hP : ∀ l ∈ ls, P l) :
    Along step (fun s l => Allowed s l ∧ P l) s ls := by
  induction ls generalizing s with
  | nil => trivial
  | cons l ls ih =>
      refine ⟨⟨h.1, hP l List.mem_cons_self⟩, ?_⟩
      intro m hm
      exact ih (h.2 m hm) fun l' hl' => hP l' (List.mem_cons_of_mem _ hl')

theorem Along.congr {step : Machine S L} {A B : S → L → Prop} (h : ∀ s l, A s l ↔ B s l) {s : S} {ls : List L} :
    Along step A s ls ↔ Along step B s ls := by
  induction ls generalizing s with
  | nil => exact Iff.rfl
  | cons l ls ih => exact and_congr (h s l) (forall₂_congr fun _ _ => ih)

theorem Along.forall_iff {ι : Sort*} {step : Machine S L} {Allowed : ι → S → L → Prop} {s : S} {ls : List L} :
    (∀ i, Along step (Allowed i) s ls) ↔ Along step (fun s l => ∀ i, Allowed i s l) s ls := by
  induction ls generalizing s with
  | nil => exact ⟨fun _ => trivial, fun _ _ => trivial⟩
  | cons l ls ih =>
      constructor
      · intro h
        exact ⟨fun i => (h i).1, fun m hm => ih.mp fun i => (h i).2 m hm⟩
      · rintro ⟨hl, hrest⟩ i
        exact ⟨hl i, fun m hm => ih.mpr (hrest m hm) i⟩

/-- Two machines that take every label together allow the same runs. -/
theorem Along.congr_of_simulates {T : Type*} {step : Machine S L} {step' : Machine T L} {R : S → T → Prop}
    {A : S → L → Prop} {B : T → L → Prop}
    (h : ∀ s t l, R s t → (A s l ↔ B t l) ∧ ∃ s' t', step s l = some s' ∧ step' t l = some t' ∧ R s' t')
    {s : S} {t : T} {ls : List L} (hst : R s t) : Along step A s ls ↔ Along step' B t ls := by
  induction ls generalizing s t with
  | nil => exact Iff.rfl
  | cons l ls ih =>
      obtain ⟨hiff, s', t', hs, ht, hst'⟩ := h s t l hst
      constructor
      · rintro ⟨hl, hrest⟩
        refine ⟨hiff.mp hl, fun t'' ht'' => ?_⟩
        cases ht.symm.trans ht''
        exact (ih hst').mp (hrest s' hs)
      · rintro ⟨hl, hrest⟩
        refine ⟨hiff.mpr hl, fun s'' hs'' => ?_⟩
        cases hs.symm.trans hs''
        exact (ih hst').mpr (hrest t' ht)

/-- Executable counterpart of `Along`. -/
def alongAll (step : Machine S L) (allowed : S → L → Bool) : S → List L → Bool
  | _, [] => true
  | s, l :: ls => allowed s l && (step s l).all fun m => alongAll step allowed m ls

theorem along_of_all {step : Machine S L} {Allowed : S → L → Prop} {allowed : S → L → Bool}
    (hallowed : ∀ s l, allowed s l = true → Allowed s l) {s : S} {ls : List L}
    (h : alongAll step allowed s ls = true) : Along step Allowed s ls := by
  induction ls generalizing s with
  | nil => trivial
  | cons l ls ih =>
      rw [alongAll, Bool.and_eq_true] at h
      refine ⟨hallowed s l h.1, ?_⟩
      intro m hm
      have := h.2
      rw [hm, Option.all_some] at this
      exact ih this

theorem along_of_decide {step : Machine S L} {Allowed : S → L → Prop} [∀ s, DecidablePred (Allowed s)]
    {s : S} {ls : List L} (h : alongAll step (fun s l => decide (Allowed s l)) s ls = true) :
    Along step Allowed s ls := along_of_all (fun _ _ => of_decide_eq_true) h

/-- The run rule for machines that are safe only while every step is allowed. -/
theorem Trace.invariant_along {step : Machine S L} {Allowed : S → L → Prop} {Inv : S → Prop}
    (hstep : ∀ s l t, Inv s → Allowed s l → step s l = some t → Inv t)
    {s t : S} {ls : List L} (h : Trace step s ls t) (ha : Along step Allowed s ls)
    (hs : Inv s) : Inv t := by
  induction h with
  | nil s => exact hs
  | cons first _ ih => exact ih (ha.2 _ first) (hstep _ _ _ hs ha.1 first)

/-- The states that the run from `s` along `ls` goes through. -/
def Visits (step : Machine S L) (s : S) (ls : List L) (t : S) : Prop := ∃ ks, ks <+: ls ∧ Trace step s ks t

namespace Visits

variable {step : Machine S L} {s m t : S} {l : L} {ls : List L}

theorem first : Visits step s ls s := ⟨[], List.nil_prefix, .nil s⟩

theorem last (h : Trace step s ls t) : Visits step s ls t := ⟨ls, List.prefix_rfl, h⟩

theorem cons (h : step s l = some m) (k : Visits step m ls t) : Visits step s (l :: ls) t := by
  obtain ⟨ks, hks, run⟩ := k
  exact ⟨l :: ks, List.cons_prefix_cons.mpr ⟨rfl, hks⟩, .cons h run⟩

theorem cases (h : step s l = some m) (k : Visits step s (l :: ls) t) : t = s ∨ Visits step m ls t := by
  obtain ⟨ks, hks, run⟩ := k
  cases run with
  | nil => exact .inl rfl
  | @cons _ m' _ l' ks first rest =>
      obtain ⟨rfl, hrest⟩ := List.cons_prefix_cons.mp hks
      cases h.symm.trans first
      exact .inr ⟨ks, hrest, rest⟩

end Visits

/-- A run goes through good states only if and only if its steps are all allowed, where a step that
keeps the invariant is allowed exactly when it leads to a good state. -/
theorem Trace.good_iff_along {step : Machine S L} {Regular Allowed : S → L → Prop} {Inv Good : S → Prop}
    (hgood : ∀ s, Inv s → Good s)
    (hstep : ∀ s l t, Inv s → Regular s l → Allowed s l → step s l = some t → Inv t)
    (hallowed : ∀ s l t, Inv s → Regular s l → step s l = some t → Good t → Allowed s l)
    {s t : S} {ls : List L} (run : Trace step s ls t) (regular : Along step Regular s ls) (hs : Inv s) :
    (∀ u, Visits step s ls u → Good u) ↔ Along step Allowed s ls := by
  induction run with
  | nil s =>
      refine ⟨fun _ => trivial, ?_⟩
      rintro - u ⟨ks, hks, hu⟩
      rw [List.prefix_nil.mp hks] at hu
      cases hu
      exact hgood _ hs
  | @cons s m t l ls first rest ih =>
      have hinv : Allowed s l → ((∀ u, Visits step m ls u → Good u) ↔ Along step Allowed m ls) :=
        fun hallow => ih (regular.2 m first) (hstep s l m hs regular.1 hallow first)
      constructor
      · intro h
        have hallow := hallowed s l m hs regular.1 first (h m (.cons first .first))
        refine ⟨hallow, ?_⟩
        intro m' hm'
        cases first.symm.trans hm'
        exact (hinv hallow).mp fun u hu => h u (.cons first hu)
      · rintro ⟨hallow, hrest⟩ u hu
        rcases hu.cases first with rfl | hu
        · exact hgood _ hs
        · exact (hinv hallow).mpr (hrest m first) u hu

/-- States some run from an initial state ends in. -/
def Reachable (step : Machine S L) (Init : S → Prop) (t : S) : Prop :=
  ∃ s ls, Init s ∧ Trace step s ls t

theorem Reachable.invariant {step : Machine S L} {Init Inv : S → Prop}
    (hinit : ∀ s, Init s → Inv s) (hstep : ∀ s l t, Inv s → step s l = some t → Inv t)
    {t : S} (h : Reachable step Init t) : Inv t := by
  obtain ⟨s, ls, hs, run⟩ := h
  exact run.invariant hstep (hinit s hs)

theorem Reachable.next {step : Machine S L} {Init : S → Prop} {s t : S} {ls : List L}
    (h : Reachable step Init s) (k : Trace step s ls t) : Reachable step Init t := by
  obtain ⟨a, ks, ha, run⟩ := h
  exact ⟨a, ks ++ ls, ha, run.append k⟩

end Quantframe.Lib
