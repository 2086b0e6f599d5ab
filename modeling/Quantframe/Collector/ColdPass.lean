import Quantframe.Collector.Lanes

/-!
# Passes of the cold lane

A pass ends with the first sweep of an item that was attempted since the pass began. The items are swept least
recently attempted first, so by then every other item was attempted too.
-/

namespace Quantframe.Collector.Lanes

open Lib

variable {clock : Clock} {exceeds : Int → Int → Bool} {valid : Int → Prop}

/-! ### The times of the attempts -/

def stamp (db : Tables) (itemId : String) : Option String := (db.sweepState.lookup itemId).bind SweepState.lastAttemptAt

/-- An update that leaves the attempts alone. -/
theorem stamp_update (t : Table SweepState.itemId) (itemId : String) (f : SweepState → SweepState)
    (hf : ∀ s, (f s).itemId = s.itemId) (hsame : ∀ s, (f s).lastAttemptAt = s.lastAttemptAt) (other : String) :
    ((t.update itemId f hf).lookup other).bind SweepState.lastAttemptAt =
      (t.lookup other).bind SweepState.lastAttemptAt := by
  rw [Table.lookup_update]
  split
  · cases t.lookup other with
    | none => rfl
    | some s => exact hsame s
  · rfl

/-- An update of the attempt of one item. -/
theorem stamp_set (t : Table SweepState.itemId) (itemId : String) (f : SweepState → SweepState)
    (hf : ∀ s, (f s).itemId = s.itemId) {a : Option String} (hset : ∀ s, (f s).lastAttemptAt = a) (other : String) :
    ((t.update itemId f hf).lookup other).bind SweepState.lastAttemptAt =
        (t.lookup other).bind SweepState.lastAttemptAt ∨
      other = itemId ∧ ((t.update itemId f hf).lookup other).bind SweepState.lastAttemptAt = a := by
  rw [Table.lookup_update]
  split
  · next hother =>
      cases t.lookup other with
      | none => exact .inl rfl
      | some s => exact .inr ⟨hother, hset s⟩
  · exact .inl rfl

theorem stamp_deactivateAll (t : Table SweepState.itemId) (itemId : String) :
    ((deactivateAll t).lookup itemId).bind SweepState.lastAttemptAt =
      (t.lookup itemId).bind SweepState.lastAttemptAt := by
  rw [Table.lookup, deactivateAll, List.find?_map]
  show (Option.map _ (t.lookup itemId)).bind _ = _
  cases t.lookup itemId with
  | none | some s => rfl

theorem stamp_activate (t : Table SweepState.itemId) (item : String × String) (itemId : String) :
    ((activate t item).lookup itemId).bind SweepState.lastAttemptAt =
      (t.lookup itemId).bind SweepState.lastAttemptAt := by
  rw [activate]
  split
  · next hnone =>
      rw [Table.lookup_insertOrReplace]
      split
      · next hsame =>
          rw [hsame, Option.isNone_iff_eq_none.mp hnone]
          rfl
      · rfl
  · exact stamp_update t item.1 (fun s => { s with slug := item.2, active := true }) (fun _ => rfl) (fun _ => rfl)
      itemId

/-- A sync with the item list leaves the attempts alone. -/
theorem stamp_syncItems (t : Table SweepState.itemId) (items : List (String × String)) (itemId : String) :
    ((syncItems t items).lookup itemId).bind SweepState.lastAttemptAt =
      (t.lookup itemId).bind SweepState.lastAttemptAt := by
  have hfold : ∀ t : Table SweepState.itemId, ((items.foldl activate t).lookup itemId).bind SweepState.lastAttemptAt =
      (t.lookup itemId).bind SweepState.lastAttemptAt := by
    induction items with
    | nil => exact fun _ => rfl
    | cons item items ih => exact fun t => (ih _).trans (stamp_activate t item itemId)
  rw [syncItems, hfold, stamp_deactivateAll]

/-- A block puts the attempt time back. -/
def PutsBack : Except FetchError (List V2Order) → Prop
  | .error .blocked => True
  | .error .rateLimited => True
  | _ => False

/-- What recording a sweep makes of the stamps. -/
inductive Stamped (db : Tables) (target : SweepTarget) (result : Except FetchError (List V2Order)) (sweptAt : String)
    (itemId : String) (after : Option String) : Prop
  | kept : after = stamp db itemId → Stamped db target result sweptAt itemId after
  | swept : itemId = target.itemId → after = some sweptAt → Stamped db target result sweptAt itemId after
  | putBack : itemId = target.itemId → PutsBack result → after = target.lastAttemptAt →
      Stamped db target result sweptAt itemId after

theorem stamped_recordSweep (db : Tables) (target : SweepTarget) (lane : Market.Lane)
    (result : Except FetchError (List V2Order)) (started expectedIntervalS : Int) (committed : Bool) (itemId : String) :
    Stamped db target result (clock.ts started) itemId
      (stamp (recordSweep clock exceeds db target lane result started expectedIntervalS committed) itemId) := by
  cases result with
  | ok orders =>
      simp only [recordSweep, Sweep.apply]
      split
      · have hset := stamp_set db.sweepState target.itemId (fun s => s.swept (clock.ts started) expectedIntervalS)
          (fun _ => rfl) (fun _ => rfl) itemId
        rcases hset with hkept | ⟨hitem, hset⟩
        · exact .kept hkept
        · exact .swept hitem hset
      · exact .kept rfl
  | error e =>
      cases e with
      | notFound =>
          exact .kept (stamp_update db.sweepState target.itemId (fun s => { s with active := false })
            (fun _ => rfl) (fun _ => rfl) itemId)
      | transient _ | invalid _ =>
          exact .kept (stamp_update db.sweepState target.itemId
            (fun s => { s with consecutiveErrors := s.consecutiveErrors + 1 }) (fun _ => rfl) (fun _ => rfl) itemId)
      | blocked | rateLimited =>
          have hset := stamp_set db.sweepState target.itemId (fun s => { s with lastAttemptAt := target.lastAttemptAt })
            (fun _ => rfl) (fun _ => rfl) itemId
          rcases hset with hkept | ⟨hitem, hset⟩
          · exact .kept hkept
          · exact .putBack hitem trivial hset

theorem stamp_ingestBook (db : Tables) (itemId slug : String) (orders : List V2Order) (expectedIntervalS now : Int)
    (committed : Bool) (other : String) :
    stamp (ingestBook clock exceeds db itemId slug orders expectedIntervalS now committed) other = stamp db other ∨
      committed = true ∧ other = itemId ∧
        stamp (ingestBook clock exceeds db itemId slug orders expectedIntervalS now committed) other =
          some (clock.ts now) := by
  simp only [ingestBook, recordSweep, Sweep.apply]
  cases committed with
  | false => exact .inl rfl
  | true =>
      have hset := stamp_set db.sweepState itemId (fun s => s.swept (clock.ts now) expectedIntervalS)
        (fun _ => rfl) (fun _ => rfl) other
      rcases hset with hkept | ⟨hother, hset⟩
      · exact .inl hkept
      · exact .inr ⟨rfl, hother, hset⟩

theorem stamp_markAttempt (db : Tables) (itemId sweptAt other : String) :
    stamp (db.markAttempt itemId sweptAt) other = stamp db other ∨
      other = itemId ∧ stamp (db.markAttempt itemId sweptAt) other = some sweptAt :=
  stamp_set db.sweepState itemId (fun s => { s with lastAttemptAt := some sweptAt }) (fun _ => rfl) (fun _ => rfl) other

/-! ### Every stamp is of an attempt -/

def Phase.targets : Phase → List SweepTarget
  | .read _ _ targets => targets
  | .claimed target => [target]
  | .fetching target _ _ => [target]
  | _ => []

def Phase.now? : Phase → Option Int
  | .started now _ => some now
  | .read now _ _ => some now
  | _ => none

/-- The text spells an instant at which the item was attempted. -/
def Attempted (clock : Clock) (valid : Int → Prop) (attempts : List (String × Int)) (itemId a : String) : Prop :=
  ∃ t, (itemId, t) ∈ attempts ∧ valid t ∧ a = clock.ts t

theorem Attempted.mono {attempts later : List (String × Int)} {itemId a : String} (hsub : attempts ⊆ later)
    (h : Attempted clock valid attempts itemId a) : Attempted clock valid later itemId a := by
  obtain ⟨t, hmem, ht⟩ := h
  exact ⟨t, hsub hmem, ht⟩

/-- The stamps of the table, and those the loops have read of it. -/
structure Logged (clock : Clock) (valid : Int → Prop) (s : State) : Prop where
  stamps : ∀ itemId a, stamp s.db itemId = some a → Attempted clock valid s.attempts itemId a
  targets : ∀ loop, ∀ target ∈ (s.phase loop).targets, ∀ a, target.lastAttemptAt = some a →
    Attempted clock valid s.attempts target.itemId a
  fetching : ∀ loop target expectedIntervalS started, s.phase loop = .fetching target expectedIntervalS started →
    (target.itemId, started) ∈ s.attempts ∧ valid started
  reading : ∀ loop now, (s.phase loop).now? = some now → valid now
  pass : ∀ passStarted, s.coldPassStartedAt = some passStarted → valid passStarted

/-- The time a label carries. -/
def Label.now? : Label → Option Int
  | .start _ now => some now
  | .mark _ started => some started
  | .ingestRecord _ _ _ _ now _ => some now
  | _ => none

@[simp] theorem phase_setPhase (s : State) (p : Phase) (loop other : Loop) :
    (s.setPhase p loop).phase other = if other = loop then p else s.phase other := by
  cases loop with
  | hot | cold =>
      cases other with
      | hot | cold => rfl

@[simp] theorem db_setPhase (s : State) (p : Phase) (loop : Loop) : (s.setPhase p loop).db = s.db := by
  cases loop with
  | hot | cold => rfl

@[simp] theorem attempts_setPhase (s : State) (p : Phase) (loop : Loop) :
    (s.setPhase p loop).attempts = s.attempts := by
  cases loop with
  | hot | cold => rfl

@[simp] theorem coldPassStartedAt_setPhase (s : State) (p : Phase) (loop : Loop) :
    (s.setPhase p loop).coldPassStartedAt = s.coldPassStartedAt := by
  cases loop with
  | hot | cold => rfl

/-- A loop that moves on with what is logged of its new phase. -/
theorem Logged.setPhase {s : State} (h : Logged clock valid s) {p : Phase} {loop : Loop}
    (htargets : ∀ target ∈ p.targets, ∀ a, target.lastAttemptAt = some a →
      Attempted clock valid s.attempts target.itemId a)
    (hfetching : ∀ target expectedIntervalS started, p = .fetching target expectedIntervalS started →
      (target.itemId, started) ∈ s.attempts ∧ valid started)
    (hreading : ∀ now, p.now? = some now → valid now) : Logged clock valid (s.setPhase p loop) where
  stamps itemId a ha := by
    rw [db_setPhase] at ha
    rw [attempts_setPhase]
    exact h.stamps itemId a ha
  targets other target htarget a ha := by
    rw [phase_setPhase] at htarget
    rw [attempts_setPhase]
    split at htarget
    · exact htargets target htarget a ha
    · exact h.targets other target htarget a ha
  fetching other target expectedIntervalS started hphase := by
    rw [phase_setPhase] at hphase
    rw [attempts_setPhase]
    split at hphase
    · exact hfetching target expectedIntervalS started hphase
    · exact h.fetching other target expectedIntervalS started hphase
  reading other now hphase := by
    rw [phase_setPhase] at hphase
    split at hphase
    · exact hreading now hphase
    · exact h.reading other now hphase
  pass passStarted hpass := by
    rw [coldPassStartedAt_setPhase] at hpass
    exact h.pass passStarted hpass

/-- A target is a row as it was read. -/
theorem lastAttemptAt_of_mem_targets {s : State} {hot : List String} {loop : Loop} {t : SweepTarget}
    (h : t ∈ s.targets hot loop) : ∃ row ∈ s.db.sweepState.rows, row.active = true ∧ t = target row := by
  cases loop with
  | hot =>
      obtain ⟨row, hrow, rfl⟩ := List.mem_map.mp h
      have hactive := (List.mem_filter.mp ((mem_byRank _).mp hrow)).1
      exact ⟨row, (List.mem_filter.mp hactive).1, (List.mem_filter.mp hactive).2, rfl⟩
  | cold =>
      obtain ⟨row, hrow, rfl⟩ := List.mem_map.mp h
      have hactive := (mem_byRank _).mp (List.mem_of_mem_take hrow)
      exact ⟨row, (List.mem_filter.mp hactive).1, (List.mem_filter.mp hactive).2, rfl⟩

theorem stamp_of_mem {db : Tables} {row : SweepState} (h : row ∈ db.sweepState.rows) :
    stamp db row.itemId = row.lastAttemptAt := by
  rw [stamp, Table.lookup_of_mem h]
  rfl

/-- A loop that goes back to the start of its step. -/
theorem Logged.idle {s : State} (h : Logged clock valid s) (loop : Loop) :
    Logged clock valid (s.setPhase .idle loop) := by
  apply h.setPhase
  · intro target htarget
    cases htarget
  · intro target expectedIntervalS started hphase
    cases hphase
  · intro now hphase
    cases hphase

/-- A loop that claims one of its targets. -/
theorem Logged.claimed {s : State} (h : Logged clock valid s) {loop : Loop} {target : SweepTarget}
    (htarget : target ∈ (s.phase loop).targets) : Logged clock valid (s.setPhase (.claimed target) loop) := by
  apply h.setPhase
  · intro target' htarget'
    rw [List.mem_singleton.mp htarget']
    exact h.targets loop target htarget
  · intro target' expectedIntervalS started hphase
    cases hphase
  · intro now hphase
    cases hphase

/-- A new table of attempts, with more attempts logged. -/
theorem Logged.write {s : State} (h : Logged clock valid s) {db : Tables} {attempts : List (String × Int)}
    (hsub : s.attempts ⊆ attempts)
    (hdb : ∀ itemId a, stamp db itemId = some a →
      stamp s.db itemId = some a ∨ Attempted clock valid attempts itemId a) :
    Logged clock valid { s with db, attempts } where
  stamps itemId a ha := (hdb itemId a ha).elim (fun hold => (h.stamps itemId a hold).mono hsub) id
  targets loop target htarget a ha := (h.targets loop target htarget a ha).mono hsub
  fetching loop target expectedIntervalS started hphase :=
    (h.fetching loop target expectedIntervalS started hphase).imp_left fun hmem => hsub hmem
  reading := h.reading
  pass := h.pass

theorem logged_step {s t : State} {l : Label} (h : Logged clock valid s) (htime : ∀ now, l.now? = some now → valid now)
    (hstep : s.step clock exceeds l = some t) : Logged clock valid t := by
  cases step_move hstep with
  | @start loop now hidle _ =>
      have hnow : Logged clock valid { s with now } := ⟨h.stamps, h.targets, h.fetching, h.reading, h.pass⟩
      apply hnow.setPhase
      · intro target htarget
        cases htarget
      · intro target expectedIntervalS started hphase
        cases hphase
      · intro now' hphase
        cases hphase
        exact htime now rfl
  | @read loop now hot hstarted =>
      apply h.setPhase
      · intro t ht a ha
        obtain ⟨row, hrow, -, rfl⟩ := lastAttemptAt_of_mem_targets ht
        exact h.stamps row.itemId a ((stamp_of_mem hrow).trans ha)
      · intro target expectedIntervalS started hphase
        cases hphase
      · intro now' hphase
        cases hphase
        exact h.reading loop now (by rw [hstarted]; rfl)
  | @claim loop now hot targets target hread hfound =>
      have htarget : target ∈ (s.phase loop).targets := by
        rw [hread]
        exact List.mem_of_find?_eq_some hfound
      have hnow : valid now := h.reading loop now (by rw [hread]; rfl)
      cases loop with
      | hot =>
          have hclaim : Logged clock valid (s.claim target.itemId) :=
            ⟨h.stamps, h.targets, h.fetching, h.reading, h.pass⟩
          have hmem : target ∈ ((s.claim target.itemId).phase .hot).targets := htarget
          exact hclaim.claimed hmem
      | cold =>
          have hpass : Logged clock valid ((s.claim target.itemId).passUntil clock now target) := by
            simp only [State.passUntil]
            split
            · refine ⟨h.stamps, h.targets, h.fetching, h.reading, ?_⟩
              intro passStarted hstarted
              cases hstarted
              exact hnow
            · refine ⟨h.stamps, h.targets, h.fetching, h.reading, ?_⟩
              intro passStarted hstarted
              cases hstarted
              cases hold : s.coldPassStartedAt with
              | none => simpa [State.claim, hold] using hnow
              | some old => simpa [State.claim, hold] using h.pass old hold
          have hphase : ((s.claim target.itemId).passUntil clock now target).phase .cold = s.phase .cold := by
            simp only [State.passUntil]
            split
            · rfl
            · rfl
          exact hpass.claimed (hphase ▸ htarget)
  | nothingDue hread => exact h.idle _
  | @mark loop target started hclaimed _ =>
      have hvalid : valid started := htime started rfl
      have hwritten : Logged clock valid { s with
          db := s.db.markAttempt target.itemId (clock.ts started)
          attempts := (target.itemId, started) :: s.attempts } := by
        apply h.write (List.subset_cons_self _ _)
        intro itemId a ha
        rcases stamp_markAttempt s.db target.itemId (clock.ts started) itemId with hkept | ⟨rfl, hset⟩
        · exact .inl (hkept ▸ ha)
        · rw [hset] at ha
          cases ha
          exact .inr ⟨started, List.mem_cons_self, hvalid, rfl⟩
      have hnow : Logged clock valid { s with
          db := s.db.markAttempt target.itemId (clock.ts started)
          now := started
          attempts := (target.itemId, started) :: s.attempts } :=
        ⟨hwritten.stamps, hwritten.targets, hwritten.fetching, hwritten.reading, hwritten.pass⟩
      apply hnow.setPhase
      · intro target' htarget'
        rw [List.mem_singleton.mp htarget']
        intro a ha
        have hclaim : target ∈ (s.phase loop).targets := by
          rw [hclaimed]
          exact List.mem_singleton_self target
        exact hnow.targets loop target hclaim a ha
      · intro target' expectedIntervalS started' hphase
        cases hphase
        exact ⟨List.mem_cons_self, hvalid⟩
      · intro now hphase
        cases hphase
  | @record loop target expectedIntervalS started result committed hfetching =>
      obtain ⟨hmem, hvalid⟩ := h.fetching loop target expectedIntervalS started hfetching
      have htarget : target ∈ (s.phase loop).targets := by
        rw [hfetching]
        exact List.mem_singleton_self target
      have hwritten : Logged clock valid { s with
          db := recordSweep clock exceeds s.db target loop.lane result started expectedIntervalS committed } := by
        apply h.write (List.Subset.refl _)
        intro itemId a ha
        cases @stamped_recordSweep clock exceeds s.db target loop.lane result started expectedIntervalS committed
          itemId with
        | kept hkept => exact .inl (hkept ▸ ha)
        | swept hitem hset =>
            rw [hset] at ha
            cases ha
            exact .inr ⟨started, hitem ▸ hmem, hvalid, rfl⟩
        | putBack hitem _ hset =>
            rw [hset] at ha
            exact .inr (hitem ▸ h.targets loop target htarget a ha)
      apply Logged.idle
      exact ⟨hwritten.stamps, hwritten.targets, hwritten.fetching, hwritten.reading, hwritten.pass⟩
  | @drop loop itemId hheld =>
      apply Logged.idle
      exact ⟨h.stamps, h.targets, h.fetching, h.reading, h.pass⟩
  | dropUnclaimed hheld => exact h.idle _
  | ingestClaim hfree => exact ⟨h.stamps, h.targets, h.fetching, h.reading, h.pass⟩
  | @ingestRecord itemId slug orders expectedIntervalS now committed hmem _ =>
      have hwritten : Logged clock valid { s with
          db := ingestBook clock exceeds s.db itemId slug orders expectedIntervalS now committed
          attempts := if committed then (itemId, now) :: s.attempts else s.attempts } := by
        apply h.write
        · cases committed with
          | false => exact List.Subset.refl _
          | true => exact List.subset_cons_self _ _
        · intro other a ha
          rcases @stamp_ingestBook clock exceeds s.db itemId slug orders expectedIntervalS now committed other with
            hkept | ⟨rfl, rfl, hset⟩
          · exact .inl (hkept ▸ ha)
          · rw [hset] at ha
            cases ha
            exact .inr ⟨now, List.mem_cons_self, htime now rfl, rfl⟩
      exact ⟨hwritten.stamps, hwritten.targets, hwritten.fetching, hwritten.reading, hwritten.pass⟩
  | ingestDrop hmem => exact ⟨h.stamps, h.targets, h.fetching, h.reading, h.pass⟩
  | syncItems items =>
      have hwritten : Logged clock valid { s with
          db := { s.db with sweepState := Lanes.syncItems s.db.sweepState items } } := by
        apply h.write (List.Subset.refl _)
        intro itemId a ha
        exact .inl ((stamp_syncItems s.db.sweepState items itemId).symm.trans ha)
      exact hwritten
  | setHot ids => exact ⟨h.stamps, h.targets, h.fetching, h.reading, h.pass⟩

theorem logged_run {s t : State} {ls : List Label} (h : Logged clock valid s)
    (htime : ∀ l ∈ ls, ∀ now, l.now? = some now → valid now) (run : Trace (State.step clock exceeds) s ls t) :
    Logged clock valid t := by
  induction run with
  | nil s => exact h
  | @cons s m t l ls first _ ih =>
      have hm := logged_step h (htime l List.mem_cons_self) first
      exact ih hm fun l' hl' => htime l' (List.mem_cons_of_mem _ hl')

/-! ### Until the end of a pass -/

/-- A label of the cold loop. -/
def Label.ofCold : Label → Prop
  | .start .cold _ => True
  | .read .cold => True
  | .claim .cold => True
  | .mark .cold _ => True
  | .record .cold _ _ => True
  | .drop .cold => True
  | _ => False

/-- The cold loop moves by its own labels only, and so do the pass and its length. -/
theorem cold_frame {s t : State} {l : Label} (hother : ¬ l.ofCold) (hstep : s.step clock exceeds l = some t) :
    t.coldLoop = s.coldLoop ∧ t.coldPassStartedAt = s.coldPassStartedAt ∧
      t.lastColdPassSeconds = s.lastColdPassSeconds := by
  cases step_move hstep with
  | @start loop | @read loop | @claim loop | @nothingDue loop | @mark loop | @record loop | @drop loop
  | @dropUnclaimed loop =>
      cases loop with
      | hot => exact ⟨rfl, rfl, rfl⟩
      | cold => exact absurd trivial hother
  | ingestClaim _ | ingestRecord _ _ _ _ _ _ | ingestDrop _ | syncItems _ | setHot _ => exact ⟨rfl, rfl, rfl⟩

theorem cold_frame_run {s t : State} {ls : List Label} (hother : ∀ l ∈ ls, ¬ l.ofCold)
    (run : Trace (State.step clock exceeds) s ls t) :
    t.coldLoop = s.coldLoop ∧ t.coldPassStartedAt = s.coldPassStartedAt ∧
      t.lastColdPassSeconds = s.lastColdPassSeconds := by
  induction run with
  | nil s => exact ⟨rfl, rfl, rfl⟩
  | @cons s m t l ls first _ ih =>
      obtain ⟨hloop, hpass, hseconds⟩ := cold_frame (hother l List.mem_cons_self) first
      obtain ⟨hloop', hpass', hseconds'⟩ := ih fun l' hl' => hother l' (List.mem_cons_of_mem _ hl')
      exact ⟨hloop'.trans hloop, hpass'.trans hpass, hseconds'.trans hseconds⟩

/-- A later rank of an attempted row is that of a row attempted no earlier. -/
theorem lastAttemptAt_of_rank {row other : SweepState} {a : String} (ha : row.lastAttemptAt = some a)
    (hrank : attemptRank row ≤ attemptRank other) : ∃ b, other.lastAttemptAt = some b ∧ a ≤ b := by
  rw [attemptRank, attemptRank, Prod.Lex.toLex_le_toLex, Prod.Lex.toLex_le_toLex, ha] at hrank
  cases hb : other.lastAttemptAt with
  | none =>
      rw [hb] at hrank
      simp only [Option.isSome_some, Option.isSome_none, reduceCtorEq, false_and, or_false] at hrank
      exact absurd hrank (by decide)
  | some b =>
      refine ⟨b, rfl, ?_⟩
      rw [hb] at hrank
      simp only [Option.isSome_some, lt_irrefl, false_or, true_and, Option.getD_some] at hrank
      rcases hrank with hlt | ⟨heq, -⟩
      · exact hlt.le
      · exact heq.le

/-- The claim of the cold loop. -/
theorem cold_claim {s t : State} {now : Int} {hot : List String} {targets : List SweepTarget}
    (hread : s.coldLoop = .read now hot targets) (hstep : s.step clock exceeds (.claim .cold) = some t) :
    (∃ y, (targets.find? fun y => s.wants clock now hot y .cold) = some y ∧ t = s.beginSweep clock now y .cold) ∨
      t = s.setPhase .idle .cold := by
  have hphase : s.phase .cold = .read now hot targets := hread
  rw [State.step, hphase] at hstep
  cases hfound : targets.find? fun y => s.wants clock now hot y .cold with
  | none =>
      simp only [hfound] at hstep
      exact .inr (Option.some.inj hstep).symm
  | some y =>
      simp only [hfound] at hstep
      exact .inl ⟨y, rfl, (Option.some.inj hstep).symm⟩

/-- When a pass ends, every item that was active when the candidates were read, was not hot and is not being swept,
has been attempted since the pass began, by this lane or another; and the time the pass took is kept. -/
theorem cold_pass_complete (hclock : clock.Lawful valid) {s₀ s s₁ s₂ s₃ : State} {before between : List Label}
    (hstart : Logged clock valid s₀) (htime : ∀ l ∈ before, ∀ now, l.now? = some now → valid now)
    (run : Trace (State.step clock exceeds) s₀ before s) {now : Int} {hot : List String}
    (hread : s.coldLoop = .started now hot) (read : s.step clock exceeds (.read .cold) = some s₁)
    (hother : ∀ l ∈ between, ¬ l.ofCold) (meanwhile : Trace (State.step clock exceeds) s₁ between s₂)
    (claim : s₂.step clock exceeds (.claim .cold) = some s₃) {passStarted : Int}
    (hpass : s₂.coldPassStartedAt = some passStarted) (hend : s₃.coldPassStartedAt ≠ some passStarted) :
    s₃.coldPassStartedAt = some now ∧ s₃.lastColdPassSeconds = some (numSeconds (now - passStarted)) ∧
      ∀ row ∈ s.db.sweepState.rows, row.active = true → row.itemId ∉ hot → row.itemId ∉ s₂.inFlight →
        ∃ t, (row.itemId, t) ∈ s.attempts ∧ wholeSeconds passStarted ≤ wholeSeconds t := by
  have hlogged := logged_run hstart htime run
  have hs₁ : s₁ = s.setPhase (.read now hot (s.targets hot .cold)) .cold := by
    have hphase : s.phase .cold = .started now hot := hread
    rw [State.step, hphase] at read
    exact (Option.some.inj read).symm
  subst hs₁
  obtain ⟨hloop, hstarted, -⟩ := cold_frame_run hother meanwhile
  have hvalid : valid passStarted := hlogged.pass passStarted (hstarted.symm.trans hpass)
  rcases cold_claim hloop claim with ⟨y, hfound, rfl⟩ | rfl
  · have hattempted : ∃ a, y.lastAttemptAt = some a ∧ clock.ts passStarted ≤ a := by
      by_contra hnone
      apply hend
      have hany : (y.lastAttemptAt.any fun a => decide (clock.ts passStarted ≤ a)) = false := by
        cases hy : y.lastAttemptAt with
        | none => rfl
        | some a => exact decide_eq_false fun hle => hnone ⟨a, hy, hle⟩
      have hstill : (s₂.claim y.itemId).coldPassStartedAt = some passStarted := hpass
      simp only [State.beginSweep, State.passUntil, hstill, Option.getD_some, hany, Bool.false_eq_true, if_false,
        State.setPhase]
    obtain ⟨a, ha, hle⟩ := hattempted
    have hany : (y.lastAttemptAt.any fun a => decide (clock.ts passStarted ≤ a)) = true := by
      rw [ha, Option.any_some]
      exact decide_eq_true hle
    have hstill : (s₂.claim y.itemId).coldPassStartedAt = some passStarted := hpass
    refine ⟨?_, ?_, ?_⟩
    · simp only [State.beginSweep, State.passUntil, hstill, Option.getD_some, hany, if_true, State.setPhase]
    · simp only [State.beginSweep, State.passUntil, hstill, Option.getD_some, hany, if_true, State.setPhase]
    · intro row hrow hactive hcold hfree
      have htargets : s.targets hot .cold = ((byRank attemptRank (activeRows s.db.sweepState)).take coldCandidates).map
          target := rfl
      rw [htargets, List.find?_map, Option.map_eq_some_iff] at hfound
      obtain ⟨first, hfirst, rfl⟩ := hfound
      have hwants : s₂.wants clock now hot (target row) .cold = true := by
        simp [State.wants, target, hcold, hfree]
      have hmem : row ∈ activeRows s.db.sweepState := List.mem_filter.mpr ⟨hrow, hactive⟩
      have hrank := rank_le_of_find? hfirst hmem hwants
      obtain ⟨b, hb, hab⟩ := lastAttemptAt_of_rank ha hrank
      obtain ⟨t, hlog, ht, rfl⟩ := hlogged.stamps row.itemId b ((stamp_of_mem hrow).trans hb)
      exact ⟨t, hlog, (hclock.order passStarted t hvalid ht).mp (hle.trans hab)⟩
  · rw [coldPassStartedAt_setPhase] at hend
    exact absurd hpass hend

/-! #### One item, pass after pass -/

def ColdSpelled (t : Int) : Prop := t ∈ [0, 5000000000]

theorem coldClock_lawful : coldClock.Lawful ColdSpelled where
  reads := by
    unfold ColdSpelled Clock.Reads
    decide +kernel
  order := by
    have h : ∀ t, ColdSpelled t → ∀ t', ColdSpelled t' →
        (coldClock.ts t ≤ coldClock.ts t' ↔ wholeSeconds t ≤ wholeSeconds t') := by
      unfold ColdSpelled
      decide +kernel
    exact fun t t' ht ht' => h t ht t' ht'

def noGap (_ _ : Int) : Bool := false

def coldMarked : State := { coldClaimed with
  db := coldStart.db.markAttempt "item1" (coldClock.ts 0)
  coldLoop := .fetching (target (coldItem none)) 60 0
  attempts := [("item1", 0)] }

theorem coldMarked_step : coldClaimed.step coldClock noGap (.mark .cold 0) = some coldMarked := rfl

/-- The item is stored, and the loop at its next step. -/
def coldWaiting : State := { coldMarked with
  db := recordSweep coldClock noGap coldMarked.db (target (coldItem none)) .cold (.ok []) 0 60 true
  inFlight := []
  coldLoop := .started 5000000000 []
  now := 5000000000 }

theorem coldWaiting_run : Trace (State.step coldClock noGap) coldMarked
    [.record .cold (.ok []) true, .start .cold 5000000000] coldWaiting := by
  apply Trace.cons rfl
  apply Trace.single
  rfl

def coldRow : SweepState := ⟨"item1", "slug1", true, some "1970-01-01T00:00:00Z", some "1970-01-01T00:00:00Z",
  some "1970-01-01T00:00:00Z", 60, 0⟩

theorem coldWaiting_rows : coldWaiting.db.sweepState.rows = [coldRow] := by decide +kernel

def coldRead : State :=
  coldWaiting.setPhase (.read 5000000000 [] (coldTargets coldWaiting.db.sweepState coldCandidates)) .cold

theorem coldRead_step : coldWaiting.step coldClock noGap (.read .cold) = some coldRead := rfl

theorem coldRead_claim : coldRead.step coldClock noGap (.claim .cold) =
    some (coldRead.beginSweep coldClock 5000000000 (target coldRow) .cold) := by
  have htargets : coldTargets coldWaiting.db.sweepState coldCandidates = [target coldRow] :=
    coldTargets_single coldWaiting_rows rfl
  have hfound : ((coldTargets coldWaiting.db.sweepState coldCandidates).find? fun y =>
      State.wants coldClock coldRead 5000000000 [] y .cold) = some (target coldRow) := by
    rw [htargets]
    decide +kernel
  exact step_claim rfl hfound

theorem coldStart_logged : Logged coldClock ColdSpelled coldStart where
  stamps itemId a ha := by
    obtain ⟨row, hrow, ha⟩ := Option.bind_eq_some_iff.mp ha
    rw [List.mem_singleton.mp (Table.mem_of_lookup hrow)] at ha
    cases ha
  targets loop target htarget := by
    cases loop with
    | hot | cold => cases htarget
  fetching loop target e started hphase := by
    cases loop with
    | hot | cold => cases hphase
  reading loop now hphase := by
    cases loop with
    | hot | cold => cases hphase
  pass passStarted hpass := by cases hpass

/-- The second sweep of the one item ends the first pass. -/
theorem cold_pass_complete_single :
    (coldRead.beginSweep coldClock 5000000000 (target coldRow) .cold).coldPassStartedAt = some 5000000000 ∧
      (coldRead.beginSweep coldClock 5000000000 (target coldRow) .cold).lastColdPassSeconds = some 5 ∧
        ∀ row ∈ coldWaiting.db.sweepState.rows, row.active = true → row.itemId ∉ ([] : List String) →
          row.itemId ∉ coldRead.inFlight →
            ∃ t, (row.itemId, t) ∈ coldWaiting.attempts ∧ wholeSeconds 0 ≤ wholeSeconds t := by
  have run := (coldClaimed_run.append (.single coldMarked_step)).append coldWaiting_run
  have htime : ∀ l ∈ [Label.start .cold 0, .read .cold, .claim .cold] ++ [.mark .cold 0] ++
      [.record .cold (.ok []) true, .start .cold 5000000000], ∀ now, l.now? = some now → ColdSpelled now := by
    intro l hl now hnow
    simp only [List.cons_append, List.nil_append, List.mem_cons, List.not_mem_nil, or_false] at hl
    rcases hl with rfl | rfl | rfl | rfl | rfl | rfl
    · cases hnow; exact List.mem_cons_self
    · cases hnow
    · cases hnow
    · cases hnow; exact List.mem_cons_self
    · cases hnow
    · cases hnow; exact List.mem_cons_of_mem _ List.mem_cons_self
  have hend : (coldRead.beginSweep coldClock 5000000000 (target coldRow) .cold).coldPassStartedAt ≠ some 0 := by
    decide +kernel
  exact cold_pass_complete coldClock_lawful coldStart_logged htime run rfl coldRead_step
    (fun l hl => absurd hl List.not_mem_nil) (.nil coldRead) coldRead_claim rfl hend

/-! ### Within a pass -/

def Listed (db : Tables) (itemId : String) : Prop := (db.sweepState.lookup itemId).isSome = true

theorem listed_update {t : Table SweepState.itemId} {itemId other : String} {f : SweepState → SweepState}
    (hf : ∀ s, (f s).itemId = s.itemId) (h : (t.lookup other).isSome = true) :
    ((t.update itemId f hf).lookup other).isSome = true := by
  rw [Table.lookup_update]
  split
  · rwa [Option.isSome_map]
  · exact h

theorem listed_recordSweep {db : Tables} {other : String} (h : Listed db other) (target : SweepTarget)
    (lane : Market.Lane) (result : Except FetchError (List V2Order)) (started expectedIntervalS : Int)
    (committed : Bool) :
    Listed (recordSweep clock exceeds db target lane result started expectedIntervalS committed) other := by
  cases result with
  | ok orders =>
      simp only [recordSweep, Sweep.apply]
      split
      · refine listed_update ?_ h
        exact fun _ => rfl
      · exact h
  | error e =>
      cases e with
      | notFound | transient _ | invalid _ | blocked | rateLimited =>
          refine listed_update ?_ h
          exact fun _ => rfl

theorem listed_syncItems {t : Table SweepState.itemId} {other : String} (h : (t.lookup other).isSome = true)
    (items : List (String × String)) : ((syncItems t items).lookup other).isSome = true := by
  have hdeactivated : ((deactivateAll t).lookup other).isSome = true := by
    rw [Table.lookup, deactivateAll, List.find?_map, Option.isSome_map]
    exact h
  have hfold : ∀ t : Table SweepState.itemId, (t.lookup other).isSome = true →
      ((items.foldl activate t).lookup other).isSome = true := by
    induction items with
    | nil => exact fun _ h => h
    | cons item items ih =>
        intro t ht
        apply ih
        rw [activate]
        split
        · rw [Table.lookup_insertOrReplace]
          split
          · rfl
          · exact ht
        · exact listed_update _ ht
  exact hfold _ hdeactivated

/-- The targets of the loops are rows of the table, which are never deleted. -/
def Known (s : State) : Prop := ∀ loop, ∀ target ∈ (s.phase loop).targets, Listed s.db target.itemId

theorem Known.setPhase {s : State} (h : Known s) {p : Phase} {loop : Loop}
    (hp : ∀ target ∈ p.targets, Listed s.db target.itemId) : Known (s.setPhase p loop) := by
  intro other target htarget
  rw [phase_setPhase] at htarget
  rw [db_setPhase]
  split at htarget
  · exact hp target htarget
  · exact h other target htarget

theorem Known.idle {s : State} (h : Known s) (loop : Loop) : Known (s.setPhase .idle loop) :=
  h.setPhase fun _ htarget => absurd htarget List.not_mem_nil

theorem known_step {s t : State} {l : Label} (h : Known s) (hstep : s.step clock exceeds l = some t) : Known t := by
  cases step_move hstep with
  | @start loop now hidle _ =>
      have hnow : Known { s with now } := h
      exact hnow.setPhase fun _ htarget => absurd htarget List.not_mem_nil
  | read hstarted =>
      apply h.setPhase
      intro t ht
      obtain ⟨row, hrow, -, rfl⟩ := lastAttemptAt_of_mem_targets ht
      rw [Listed, target, Table.lookup_of_mem hrow]
      rfl
  | @claim loop now hot targets target hread hfound =>
      have htarget : target ∈ (s.phase loop).targets := by
        rw [hread]
        exact List.mem_of_find?_eq_some hfound
      have hlisted := h loop target htarget
      have hclaimed : ∀ s' : State, s'.db = s.db → (∀ loop, s'.phase loop = s.phase loop) →
          Known (s'.setPhase (.claimed target) loop) := by
        intro s' hdb hphase
        have hs' : Known s' := by
          intro other t ht
          rw [hphase] at ht
          rw [hdb]
          exact h other t ht
        apply hs'.setPhase
        intro t ht
        rw [List.mem_singleton.mp ht, hdb]
        exact hlisted
      cases loop with
      | hot => exact hclaimed (s.claim target.itemId) rfl fun _ => rfl
      | cold =>
          apply hclaimed ((s.claim target.itemId).passUntil clock now target)
          · simp only [State.passUntil]
            split
            · rfl
            · rfl
          · intro other
            simp only [State.passUntil]
            split
            · rfl
            · rfl
  | nothingDue hread => exact h.idle _
  | @mark loop target started hclaimed _ =>
      have hmarked : Known { s with
          db := s.db.markAttempt target.itemId (clock.ts started)
          now := started
          attempts := (target.itemId, started) :: s.attempts } := by
        intro other t ht
        refine listed_update ?_ (h other t ht)
        exact fun _ => rfl
      apply hmarked.setPhase
      intro t ht
      have htarget : target ∈ (s.phase loop).targets := by
        rw [hclaimed]
        exact List.mem_singleton_self target
      rw [List.mem_singleton.mp ht]
      exact hmarked loop target htarget
  | @record loop target expectedIntervalS started result committed hfetching =>
      apply Known.idle
      intro other t ht
      exact listed_recordSweep (h other t ht) target loop.lane result started expectedIntervalS committed
  | @drop loop itemId hheld =>
      have hreleased : Known (s.release itemId) := h
      exact hreleased.idle loop
  | dropUnclaimed hheld => exact h.idle _
  | ingestClaim hfree => exact h
  | @ingestRecord itemId slug orders expectedIntervalS now committed hmem _ =>
      exact fun other t ht => listed_recordSweep (h other t ht) ⟨itemId, slug, none⟩ .trader (.ok orders) now
        expectedIntervalS committed
  | ingestDrop hmem => exact h
  | syncItems items => exact fun loop target htarget => listed_syncItems (h loop target htarget) items
  | setHot ids => exact h

/-- A block that puts back the time of an attempt of the item. -/
def PutsBackAt (itemId : String) (s : State) : Label → Prop
  | .record loop result _ => PutsBack result ∧ ∃ target expectedIntervalS started,
      s.phase loop = .fetching target expectedIntervalS started ∧ target.itemId = itemId
  | _ => False

/-- The text spells an instant since. -/
def Late (clock : Clock) (valid : Int → Prop) (started : Int) (a : Option String) : Prop :=
  ∃ t, started ≤ t ∧ valid t ∧ a = some (clock.ts t)

/-- What is known of an item since an attempt. -/
structure Since (clock : Clock) (valid : Int → Prop) (itemId : String) (started : Int) (s : State) : Prop where
  stamp : Late clock valid started (stamp s.db itemId)
  now : started ≤ s.now
  fetching : ∀ loop target expectedIntervalS at_, s.phase loop = .fetching target expectedIntervalS at_ →
    target.itemId = itemId → started ≤ at_ ∧ valid at_
  targets : ∀ now hot targets, s.coldLoop = .read now hot targets → ∀ target ∈ targets, target.itemId = itemId →
    Late clock valid started target.lastAttemptAt

theorem now_setPhase (s : State) (p : Phase) (loop : Loop) : (s.setPhase p loop).now = s.now := by
  cases loop with
  | hot | cold => rfl

/-- A loop that moves on, with what is known of its new phase. -/
theorem Since.setPhase {s : State} {itemId : String} {started : Int} (h : Since clock valid itemId started s)
    {p : Phase} {loop : Loop}
    (hfetching : ∀ target expectedIntervalS at_, p = .fetching target expectedIntervalS at_ → target.itemId = itemId →
      started ≤ at_ ∧ valid at_)
    (htargets : loop = .cold → ∀ now hot targets, p = .read now hot targets → ∀ target ∈ targets,
      target.itemId = itemId → Late clock valid started target.lastAttemptAt) :
    Since clock valid itemId started (s.setPhase p loop) where
  stamp := by
    rw [db_setPhase]
    exact h.stamp
  now := by
    rw [now_setPhase]
    exact h.now
  fetching other target expectedIntervalS at_ hphase hitem := by
    rw [phase_setPhase] at hphase
    split at hphase
    · exact hfetching target expectedIntervalS at_ hphase hitem
    · exact h.fetching other target expectedIntervalS at_ hphase hitem
  targets now hot targets hread target htarget hitem := by
    have hphase : (s.setPhase p loop).phase .cold = .read now hot targets := hread
    rw [phase_setPhase] at hphase
    split at hphase
    · next hcold => exact htargets hcold.symm now hot targets hphase target htarget hitem
    · exact h.targets now hot targets hphase target htarget hitem

/-- A loop that moves on to a phase without a fetch and without targets. -/
theorem Since.plain {s : State} {itemId : String} {started : Int} (h : Since clock valid itemId started s) {p : Phase}
    {loop : Loop} (hfetching : ∀ target expectedIntervalS at_, p ≠ .fetching target expectedIntervalS at_)
    (htargets : ∀ now hot targets, p ≠ .read now hot targets) :
    Since clock valid itemId started (s.setPhase p loop) :=
  h.setPhase (fun target e at_ hp => absurd hp (hfetching target e at_))
    fun _ now hot targets hp => absurd hp (htargets now hot targets)

theorem since_step {s t : State} {l : Label} {itemId : String} {started : Int}
    (h : Since clock valid itemId started s) (htime : ∀ now, l.now? = some now → valid now)
    (hkept : ¬ PutsBackAt itemId s l) (hstep : s.step clock exceeds l = some t) :
    Since clock valid itemId started t := by
  cases step_move hstep with
  | @start loop now hidle hnow =>
      have hlater : Since clock valid itemId started { s with now } :=
        ⟨h.stamp, h.now.trans hnow, h.fetching, h.targets⟩
      exact hlater.plain (fun _ _ _ hp => by cases hp) fun _ _ _ hp => by cases hp
  | @read loop now hot hstarted =>
      apply h.setPhase
      · intro target e at_ hp
        cases hp
      · rintro - now' hot' targets hp target htarget rfl
        cases hp
        obtain ⟨row, hrow, -, rfl⟩ := lastAttemptAt_of_mem_targets htarget
        have hstamp := stamp_of_mem hrow
        have hlate := h.stamp
        rw [show (Lanes.target row).itemId = row.itemId from rfl, hstamp] at hlate
        exact hlate
  | @claim loop now hot targets target hread hfound =>
      cases loop with
      | hot =>
          have hclaim : Since clock valid itemId started (s.claim target.itemId) :=
            ⟨h.stamp, h.now, h.fetching, h.targets⟩
          show Since clock valid itemId started ((s.claim target.itemId).setPhase (.claimed target) .hot)
          exact hclaim.plain (fun _ _ _ hp => by cases hp) fun _ _ _ hp => by cases hp
      | cold =>
          have hclaim : Since clock valid itemId started ((s.claim target.itemId).passUntil clock now target) := by
            simp only [State.passUntil]
            split
            · exact ⟨h.stamp, h.now, h.fetching, h.targets⟩
            · exact ⟨h.stamp, h.now, h.fetching, h.targets⟩
          show Since clock valid itemId started
            (((s.claim target.itemId).passUntil clock now target).setPhase (.claimed target) .cold)
          exact hclaim.plain (fun _ _ _ hp => by cases hp) fun _ _ _ hp => by cases hp
  | nothingDue hread => exact h.plain (fun _ _ _ hp => by cases hp) fun _ _ _ hp => by cases hp
  | @mark loop target at_ hclaimed hnow =>
      have hvalid : valid at_ := htime at_ rfl
      have hmarked : Since clock valid itemId started { s with
          db := s.db.markAttempt target.itemId (clock.ts at_)
          now := at_
          attempts := (target.itemId, at_) :: s.attempts } := by
        refine ⟨?_, h.now.trans hnow, h.fetching, h.targets⟩
        rcases stamp_markAttempt s.db target.itemId (clock.ts at_) itemId with hsame | ⟨-, hset⟩
        · exact hsame ▸ h.stamp
        · exact ⟨at_, h.now.trans hnow, hvalid, hset⟩
      apply hmarked.setPhase
      · intro target' e at' hp _
        cases hp
        exact ⟨h.now.trans hnow, hvalid⟩
      · intro _ now hot targets hp
        cases hp
  | @record loop target expectedIntervalS at_ result committed hfetching =>
      have hrecorded : Since clock valid itemId started (({ s with
          db := recordSweep clock exceeds s.db target loop.lane result at_ expectedIntervalS committed
          } : State).release target.itemId) := by
        refine ⟨?_, h.now, h.fetching, h.targets⟩
        cases @stamped_recordSweep clock exceeds s.db target loop.lane result at_ expectedIntervalS committed
          itemId with
        | kept hsame => exact hsame ▸ h.stamp
        | swept hitem hset =>
            obtain ⟨hle, hvalid⟩ := h.fetching loop target expectedIntervalS at_ hfetching hitem.symm
            exact ⟨at_, hle, hvalid, hset⟩
        | putBack hitem hback _ =>
            exact absurd ⟨hback, target, expectedIntervalS, at_, hfetching, hitem.symm⟩ hkept
      exact hrecorded.plain (fun _ _ _ hp => by cases hp) fun _ _ _ hp => by cases hp
  | @drop loop other hheld =>
      have hreleased : Since clock valid itemId started (s.release other) := ⟨h.stamp, h.now, h.fetching, h.targets⟩
      exact hreleased.plain (fun _ _ _ hp => by cases hp) fun _ _ _ hp => by cases hp
  | dropUnclaimed hheld => exact h.plain (fun _ _ _ hp => by cases hp) fun _ _ _ hp => by cases hp
  | ingestClaim hfree => exact ⟨h.stamp, h.now, h.fetching, h.targets⟩
  | @ingestRecord other slug orders expectedIntervalS now committed hmem hnow =>
      refine ⟨?_, h.now.trans hnow, h.fetching, h.targets⟩
      rcases @stamp_ingestBook clock exceeds s.db other slug orders expectedIntervalS now committed itemId with
        hsame | ⟨-, -, hset⟩
      · exact hsame ▸ h.stamp
      · exact ⟨now, h.now.trans hnow, htime now rfl, hset⟩
  | ingestDrop hmem => exact ⟨h.stamp, h.now, h.fetching, h.targets⟩
  | syncItems items =>
      refine ⟨?_, h.now, h.fetching, h.targets⟩
      show Late clock valid started (((Lanes.syncItems s.db.sweepState items).lookup itemId).bind
        SweepState.lastAttemptAt)
      rw [stamp_syncItems]
      exact h.stamp
  | setHot ids => exact ⟨h.stamp, h.now, h.fetching, h.targets⟩

theorem since_run {s t : State} {ls : List Label} {itemId : String} {started : Int}
    (h : Since clock valid itemId started s) (htime : ∀ l ∈ ls, ∀ now, l.now? = some now → valid now)
    (hkept : Along (State.step clock exceeds) (fun s l => ¬ PutsBackAt itemId s l) s ls)
    (run : Trace (State.step clock exceeds) s ls t) : Since clock valid itemId started t := by
  induction run with
  | nil s => exact h
  | @cons s m t l ls first _ ih =>
      have hm := since_step h (htime l List.mem_cons_self) hkept.1 first
      exact ih hm (fun l' hl' => htime l' (List.mem_cons_of_mem _ hl')) (hkept.2 m first)

/-- The state after the cold loop marks an attempt. -/
theorem since_mark {s t : State} {target : SweepTarget} {started : Int} (hexclusive : Exclusive s) (hknown : Known s)
    (hclaimed : s.coldLoop = .claimed target) (hvalid : valid started)
    (hstep : s.step clock exceeds (.mark .cold started) = some t) :
    Since clock valid target.itemId started t := by
  have hphase : s.phase .cold = .claimed target := hclaimed
  rw [State.step, hphase] at hstep
  simp only at hstep
  split at hstep
  · cases hstep
    have hlisted : Listed s.db target.itemId := by
      apply hknown .cold
      rw [hphase]
      exact List.mem_singleton_self target
    obtain ⟨row, hrow⟩ := Option.isSome_iff_exists.mp hlisted
    refine ⟨⟨started, le_refl _, hvalid, ?_⟩, ?_, ?_, ?_⟩
    · show stamp (s.db.markAttempt target.itemId (clock.ts started)) target.itemId = some (clock.ts started)
      rw [stamp, Tables.markAttempt, Tables.setState, Table.lookup_update, if_pos rfl, hrow]
      rfl
    · exact le_refl started
    · intro loop target' e at_ hfetching hitem
      cases loop with
      | cold =>
          cases hfetching
          exact ⟨le_refl _, hvalid⟩
      | hot =>
          -- the hot loop cannot be at the item too
          have hhot : s.hotLoop.holds target.itemId = 1 := by
            have hphase' : s.hotLoop = .fetching target' e at_ := hfetching
            rw [hphase']
            exact holds_self (congrArg some hitem)
          have hcold : s.coldLoop.holds target.itemId = 1 := by
            rw [hclaimed]
            exact holds_self rfl
          have hcount : s.holders target.itemId ≤ 1 := by
            by_cases hmem : target.itemId ∈ s.inFlight
            · exact ((hexclusive target.itemId).1 hmem).le
            · exact ((hexclusive target.itemId).2 hmem).le.trans (Nat.zero_le 1)
          rw [State.holders] at hcount
          omega
    · intro now hot targets hread
      cases hread
  · cases hstep

/-- The cold lane does not sweep an item twice in one pass: if it claims an item again that it swept since the pass
began, and no block put the time of an attempt of the item back meanwhile, the pass ends with that claim. -/
theorem cold_once_per_pass (hclock : clock.Lawful valid) {s₀ s s₁ s₂ s₃ : State} {before between : List Label}
    (hidle : Idle s₀) (htime : ∀ l ∈ between, ∀ now, l.now? = some now → valid now)
    (run : Trace (State.step clock exceeds) s₀ before s) {y : SweepTarget} {started : Int} (hvalid : valid started)
    (hclaimed : s.coldLoop = .claimed y) (mark : s.step clock exceeds (.mark .cold started) = some s₁)
    (meanwhile : Trace (State.step clock exceeds) s₁ between s₂)
    (hkept : Along (State.step clock exceeds) (fun s l => ¬ PutsBackAt y.itemId s l) s₁ between)
    {passStarted : Int} (hpass : s₂.coldPassStartedAt = some passStarted) (hspelled : valid passStarted)
    (hle : passStarted ≤ started) {now : Int} {hot : List String} {targets : List SweepTarget}
    (hread : s₂.coldLoop = .read now hot targets) (claim : s₂.step clock exceeds (.claim .cold) = some s₃)
    {y' : SweepTarget} (hagain : s₃.coldLoop = .claimed y') (hsame : y'.itemId = y.itemId) :
    s₃.coldPassStartedAt = some now ∧ s₃.lastColdPassSeconds = some (numSeconds (now - passStarted)) := by
  have hknown : Known s := run.invariant (fun _ _ _ hs hstep => known_step hs hstep) (by
    intro loop t ht
    cases loop with
    | hot =>
        rw [State.phase, hidle.hotLoop] at ht
        cases ht
    | cold =>
        rw [State.phase, hidle.coldLoop] at ht
        cases ht)
  have hsince := since_run (since_mark (exclusive_run hidle.exclusive run) hknown hclaimed hvalid mark) htime hkept
    meanwhile
  rcases cold_claim hread claim with ⟨found, hfound, rfl⟩ | rfl
  · have hy : y' = found := by
      cases hagain
      rfl
    subst hy
    obtain ⟨t, hlater, ht, hstamp⟩ := hsince.targets now hot targets hread y' (List.mem_of_find?_eq_some hfound) hsame
    have hany : (y'.lastAttemptAt.any fun a => decide (clock.ts passStarted ≤ a)) = true := by
      rw [hstamp, Option.any_some]
      exact decide_eq_true ((hclock.order passStarted t hspelled ht).mpr (wholeSeconds_mono (hle.trans hlater)))
    have hstill : (s₂.claim y'.itemId).coldPassStartedAt = some passStarted := hpass
    constructor
    · simp only [State.beginSweep, State.passUntil, hstill, Option.getD_some, hany, if_true, State.setPhase]
    · simp only [State.beginSweep, State.passUntil, hstill, Option.getD_some, hany, if_true, State.setPhase]
  · cases hagain

/-- The one item, swept at the start of the pass, is the first of the next pass. -/
theorem cold_once_per_pass_single :
    (coldRead.beginSweep coldClock 5000000000 (target coldRow) .cold).coldPassStartedAt = some 5000000000 ∧
      (coldRead.beginSweep coldClock 5000000000 (target coldRow) .cold).lastColdPassSeconds = some 5 := by
  have htime : ∀ l ∈ [Label.record .cold (.ok []) true, .start .cold 5000000000] ++ [.read .cold], ∀ now,
      l.now? = some now → ColdSpelled now := by
    intro l hl now hnow
    simp only [List.cons_append, List.nil_append, List.mem_cons, List.not_mem_nil, or_false] at hl
    rcases hl with rfl | rfl | rfl
    · cases hnow
    · cases hnow; exact List.mem_cons_of_mem _ List.mem_cons_self
    · cases hnow
  have hkept : Along (State.step coldClock noGap) (fun s l => ¬ PutsBackAt "item1" s l) coldMarked
      ([.record .cold (.ok []) true, .start .cold 5000000000] ++ [.read .cold]) := by
    refine ⟨fun h => h.1, fun m _ => ⟨id, fun m' _ => ⟨id, fun _ _ => trivial⟩⟩⟩
  exact cold_once_per_pass coldClock_lawful coldStart_idle htime coldClaimed_run List.mem_cons_self rfl
    coldMarked_step (coldWaiting_run.append (.single coldRead_step)) hkept rfl List.mem_cons_self (le_refl 0) rfl
    coldRead_claim rfl rfl

end Quantframe.Collector.Lanes
