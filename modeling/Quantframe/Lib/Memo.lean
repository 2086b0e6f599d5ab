import Quantframe.Lib.Machine

/-!
# A value kept under a summary of what it was computed from

A cell keeps one value together with the key its source had. A read with an equal key gets the kept
value, any other read computes it anew and keeps it. What the kept value was computed from is watched
beside the cell: the reads are right exactly when equal keys go with equal values there.
-/

namespace Quantframe.Lib

universe u v w x

variable {S : Type u} {K : Type v} {V : Type w} {L : Type x} [DecidableEq K]

inductive MemoLabel (L : Type x) where
  | write (l : L)
  | read

/-- A source and the value kept of it. -/
structure Memo (S : Type u) (K : Type v) (V : Type w) where
  source : S
  cell : Option (K × V)

/-- A source and the source as it was when the cell was filled. -/
structure Watched (S : Type u) where
  source : S
  filled : Option S

variable (write : S → L → S) (key : S → Option K) (value : S → K → V)

/-- What a read is to return; a source without a key has no value. -/
def fresh (s : S) : Option (K × V) := (key s).map fun k => (k, value s k)

def Memo.read (m : Memo S K V) : Option (K × V) × Memo S K V :=
  match key m.source with
  | none => (none, m)
  | some k =>
      match m.cell.filter fun kept => kept.1 = k with
      | some kept => (some (k, kept.2), m)
      | none => (some (k, value m.source k), { m with cell := some (k, value m.source k) })

def Memo.step : Machine (Memo S K V) (MemoLabel L)
  | m, .write l => some { m with source := write m.source l }
  | m, .read => some (m.read key value).2

/-- Whether the cell is filled anew by a read. -/
def Watched.read (m : Watched S) : Watched S :=
  match key m.source with
  | none => m
  | some k => if m.filled.bind key = some k then m else { m with filled := some m.source }

def Watched.step : Machine (Watched S) (MemoLabel L)
  | m, .write l => some { m with source := write m.source l }
  | m, .read => some (m.read key)

/-- The source has the key it had when the cell was filled only if it has the value it had then. -/
def Watched.Same (m : Watched S) : Prop :=
  ∀ s k, m.filled = some s → key s = some k → key m.source = some k → value s k = value m.source k

/-- The cell holds what was computed from the source it was filled from. -/
structure Memo.Filled (m : Memo S K V) (w : Watched S) : Prop where
  source : m.source = w.source
  cell : m.cell = w.filled.bind fun s => (key s).map fun k => (k, value s k)

variable {write key value} {m : Memo S K V} {w : Watched S}

theorem Memo.read_none (h : key m.source = none) : m.read key value = (none, m) := by
  rw [Memo.read, h]

theorem Memo.read_some {k : K} (h : key m.source = some k) : m.read key value =
    match m.cell.filter fun kept => kept.1 = k with
    | some kept => (some (k, kept.2), m)
    | none => (some (k, value m.source k), { m with cell := some (k, value m.source k) }) := by
  rw [Memo.read, h]

omit [DecidableEq K] in
theorem Memo.Filled.init (s : S) : Memo.Filled key value ⟨s, none⟩ ⟨s, none⟩ := ⟨rfl, rfl⟩

omit [DecidableEq K] in
/-- A cell whose key the source has again. -/
theorem Memo.Filled.kept (h : m.Filled key value w) {k : K} (hk : w.filled.bind key = some k) :
    ∃ s, w.filled = some s ∧ key s = some k ∧ m.cell = some (k, value s k) := by
  obtain ⟨s, hs, hks⟩ := Option.bind_eq_some_iff.mp hk
  refine ⟨s, hs, hks, ?_⟩
  rw [h.cell, hs, Option.bind_some, hks, Option.map_some]

theorem Memo.Filled.missed (h : m.Filled key value w) {k : K} (hk : w.filled.bind key ≠ some k) :
    (m.cell.filter fun kept => kept.1 = k) = none := by
  rw [h.cell, Option.filter_eq_none_iff]
  intro kept hkept hkey
  obtain ⟨s, hs, hmap⟩ := Option.bind_eq_some_iff.mp hkept
  obtain ⟨k', hk', rfl⟩ := Option.map_eq_some_iff.mp hmap
  rw [hs, Option.bind_some, hk'] at hk
  exact hk (congrArg some (of_decide_eq_true hkey))

theorem Memo.Filled.read (h : m.Filled key value w) : (m.read key value).2.Filled key value (w.read key) := by
  rw [Memo.read, Watched.read, h.source]
  cases hkey : key w.source with
  | none => exact h
  | some k =>
      by_cases hk : w.filled.bind key = some k
      · obtain ⟨s, -, -, hcell⟩ := h.kept hk
        simp only [hcell, Option.filter_some, decide_true, if_true, if_pos hk]
        exact h
      · simp only [h.missed hk, if_neg hk]
        exact ⟨rfl, by rw [Option.bind_some, hkey, Option.map_some]⟩

/-- A read is right exactly when the watched source has the value the key stands for. -/
theorem Memo.Filled.read_iff (h : m.Filled key value w) :
    (m.read key value).1 = fresh key value m.source ↔ w.Same key value := by
  rw [Memo.read, fresh, h.source]
  cases hkey : key w.source with
  | none =>
      refine ⟨fun _ s k _ _ hk => ?_, fun _ => rfl⟩
      cases hkey.symm.trans hk
  | some k =>
      by_cases hk : w.filled.bind key = some k
      · obtain ⟨s, hs, hks, hcell⟩ := h.kept hk
        simp only [hcell, Option.filter_some, decide_true, if_true, Option.map_some, Option.some.injEq,
          Prod.mk.injEq, true_and]
        constructor
        · intro heq s' k' hs' hks' hk'
          cases hs.symm.trans hs'
          cases hkey.symm.trans hk'
          exact heq
        · exact fun hsame => hsame s k hs hks hkey
      · simp only [h.missed hk, Option.map_some, true_iff]
        intro s k' hs hks hk'
        cases hkey.symm.trans hk'
        exact absurd (by rw [hs, Option.bind_some, hks]) hk

/-- Every read of a run finds a source it can read and is right exactly when, at each of them, the watched
source can be read and has the value its key stands for. -/
theorem reads_fresh_iff (P : S → Prop) (s : S) (ls : List (MemoLabel L)) :
    Along (Memo.step write key value)
        (fun m l => l = .read → P m.source ∧ (m.read key value).1 = fresh key value m.source) ⟨s, none⟩ ls ↔
      Along (Watched.step write key) (fun w l => l = .read → P w.source ∧ w.Same key value) ⟨s, none⟩ ls := by
  refine Along.congr_of_simulates (R := Memo.Filled key value) ?_ (.init s)
  intro m w l h
  cases l with
  | write l => exact ⟨⟨fun _ => nofun, fun _ => nofun⟩, _, _, rfl, rfl, congrArg (write · l) h.source, h.cell⟩
  | read =>
      have hiff : P m.source ∧ (m.read key value).1 = fresh key value m.source ↔
          P w.source ∧ w.Same key value := by
        rw [h.read_iff, h.source]
      exact ⟨⟨fun hr _ => hiff.mp (hr rfl), fun hr _ => hiff.mpr (hr rfl)⟩, _, _, rfl, rfl, h.read⟩

end Quantframe.Lib
