import Mathlib.Data.Prod.Lex
import Mathlib.Data.String.Basic
import Mathlib.Order.BooleanAlgebra.Basic
import Quantframe.Collector.Runner
import Quantframe.Lib.Machine
import Quantframe.Lib.Worklist

/-!
# The sweep lanes side by side

The hot loop, the cold loop and the books the trader hands over share one table of attempts and one set of claimed
items. Every await is a step boundary: what a loop has read may be old by the time it claims an item. The wall
clock does not go back.
-/

namespace Quantframe.Collector.Lanes

open Lib
open Market (Lane)

def hotIntervalS : Int := 300

def coldCandidates : Nat := 200

def minColdIntervalS : Int := 60

/-! ### The targets -/

def target (s : SweepState) : SweepTarget := ⟨s.itemId, s.slug, s.lastAttemptAt⟩

/-- `last_attempt_at IS NOT NULL, last_attempt_at, item_id`. -/
def attemptRank (s : SweepState) : Bool ×ₗ String ×ₗ String :=
  toLex (s.lastAttemptAt.isSome, toLex (s.lastAttemptAt.getD "", s.itemId))

def activeRows (t : Table SweepState.itemId) : List SweepState := t.rows.filter SweepState.active

/-- Active hot items, least recently attempted first. -/
def hotTargets (t : Table SweepState.itemId) (hot : List String) : List SweepTarget :=
  (byRank attemptRank ((activeRows t).filter fun s => hot.contains s.itemId)).map target

/-- Active items, never attempted first, then least recently attempted. -/
def coldTargets (t : Table SweepState.itemId) (limit : Nat) : List SweepTarget :=
  ((byRank attemptRank (activeRows t)).take limit).map target

/-- `UPDATE sweep_state SET active = 0`. -/
def deactivateAll (t : Table SweepState.itemId) : Table SweepState.itemId where
  rows := t.rows.map fun s => { s with active := false }
  primaryKey := by
    rw [List.map_map]
    exact t.primaryKey

/-- A listed item becomes active; a new one is added. -/
def activate (t : Table SweepState.itemId) (item : String × String) : Table SweepState.itemId :=
  if (t.lookup item.1).isNone then t.insertOrReplace ⟨item.1, item.2, true, none, none, none, 0, 0⟩
  else t.update item.1 (fun s => { s with slug := item.2, active := true }) fun _ => rfl

def syncItems (t : Table SweepState.itemId) (items : List (String × String)) : Table SweepState.itemId :=
  items.foldl activate (deactivateAll t)

/-! ### The loops -/

inductive Loop where
  | hot
  | cold
  deriving DecidableEq, Repr

def Loop.lane : Loop → Lane
  | .hot => .hot
  | .cold => .cold

/-- Where a loop is in its step. -/
inductive Phase where
  | idle
  /-- The time and the hot set are read. -/
  | started (now : Int) (hot : List String)
  | read (now : Int) (hot : List String) (targets : List SweepTarget)
  /-- The claim is held, the attempt not yet marked. -/
  | claimed (target : SweepTarget)
  | fetching (target : SweepTarget) (expectedIntervalS started : Int)

/-- The item whose claim the loop holds. -/
def Phase.held : Phase → Option String
  | .claimed target => some target.itemId
  | .fetching target _ _ => some target.itemId
  | _ => none

/-- Whether the loop holds the claim of the item, as a number. -/
def Phase.holds (p : Phase) (itemId : String) : Nat := if p.held = some itemId then 1 else 0

structure State where
  db : Tables
  hot : List String
  inFlight : List String
  coldPassStartedAt : Option Int
  lastColdPassSeconds : Option Int
  hotLoop : Phase
  coldLoop : Phase
  /-- The items of the books being ingested. -/
  ingesting : List String
  now : Int
  /-- Every attempt that was marked, and when. -/
  attempts : List (String × Int)

inductive Label where
  /-- `Utc::now()` and `hot_ids()`. -/
  | start (loop : Loop) (now : Int)
  | read (loop : Loop)
  | claim (loop : Loop)
  | mark (loop : Loop) (started : Int)
  | record (loop : Loop) (result : Except FetchError (List V2Order)) (committed : Bool)
  /-- An error or a panic ends the step. -/
  | drop (loop : Loop)
  | ingestClaim (itemId : String)
  | ingestRecord (itemId slug : String) (orders : List V2Order) (expectedIntervalS now : Int) (committed : Bool)
  | ingestDrop (itemId : String)
  | syncItems (items : List (String × String))
  | setHot (ids : List String)

namespace State

def phase (s : State) : Loop → Phase
  | .hot => s.hotLoop
  | .cold => s.coldLoop

def setPhase (s : State) (p : Phase) : Loop → State
  | .hot => { s with hotLoop := p }
  | .cold => { s with coldLoop := p }

/-- `InFlight::drop`. -/
def release (s : State) (itemId : String) : State :=
  { s with inFlight := s.inFlight.filter fun id => !decide (id = itemId) }

def claim (s : State) (itemId : String) : State := { s with inFlight := itemId :: s.inFlight }

section Steps

variable (clock : Clock)

/-- The loop sweeps this target if no one else does. -/
def wants (s : State) (now : Int) (hot : List String) (target : SweepTarget) : Loop → Bool
  | .hot =>
      !(target.lastAttemptAt.any fun a => decide (clock.ts (now - hotIntervalS * 1000000000) < a)) &&
        !s.inFlight.contains target.itemId
  | .cold => !hot.contains target.itemId && !s.inFlight.contains target.itemId

/-- A pass begins with the first sweep, and ends with one of an item that was attempted since. -/
def passUntil (s : State) (now : Int) (target : SweepTarget) : State :=
  let passStarted := s.coldPassStartedAt.getD now
  if target.lastAttemptAt.any fun a => decide (clock.ts passStarted ≤ a) then
    { s with lastColdPassSeconds := some (numSeconds (now - passStarted)), coldPassStartedAt := some now }
  else { s with coldPassStartedAt := some passStarted }

def beginSweep (s : State) (now : Int) (target : SweepTarget) : Loop → State
  | .hot => (s.claim target.itemId).setPhase (.claimed target) .hot
  | .cold => ((s.claim target.itemId).passUntil clock now target).setPhase (.claimed target) .cold

/-- Cold items are expected back after one full pass. -/
def coldExpectedIntervalS (s : State) : Int :=
  max (s.lastColdPassSeconds.getD (activeRows s.db.sweepState).length) minColdIntervalS

def expectedIntervalS (s : State) : Loop → Int
  | .hot => hotIntervalS
  | .cold => s.coldExpectedIntervalS

def targets (s : State) (hot : List String) : Loop → List SweepTarget
  | .hot => hotTargets s.db.sweepState hot
  | .cold => coldTargets s.db.sweepState coldCandidates

variable (exceeds : Int → Int → Bool)

def step : Machine State Label
  | s, .start loop now =>
      match s.phase loop with
      | .idle => if s.now ≤ now then some ({ s with now }.setPhase (.started now s.hot) loop) else none
      | _ => none
  | s, .read loop =>
      match s.phase loop with
      | .started now hot => some (s.setPhase (.read now hot (s.targets hot loop)) loop)
      | _ => none
  | s, .claim loop =>
      match s.phase loop with
      | .read now hot targets =>
          -- the scan is one step here; the source takes the lock for each target, and a claim may come in between
          match targets.find? fun target => s.wants clock now hot target loop with
          | some target => some (s.beginSweep clock now target loop)
          | none => some (s.setPhase .idle loop)
      | _ => none
  | s, .mark loop started =>
      match s.phase loop with
      | .claimed target =>
          if s.now ≤ started then
            some ({ s with
              db := s.db.markAttempt target.itemId (clock.ts started)
              now := started
              attempts := (target.itemId, started) :: s.attempts
              }.setPhase (.fetching target (s.expectedIntervalS loop) started) loop)
          else none
      | _ => none
  | s, .record loop result committed =>
      match s.phase loop with
      | .fetching target expectedIntervalS started =>
          some ((({ s with
            db := recordSweep clock exceeds s.db target loop.lane result started expectedIntervalS committed
            } : State).release target.itemId).setPhase .idle loop)
      | _ => none
  | s, .drop loop =>
      match (s.phase loop).held with
      | some itemId => some ((s.release itemId).setPhase .idle loop)
      | none => some (s.setPhase .idle loop)
  | s, .ingestClaim itemId =>
      if s.inFlight.contains itemId then none
      else some { s.claim itemId with ingesting := itemId :: s.ingesting }
  | s, .ingestRecord itemId slug orders expectedIntervalS now committed =>
      if s.ingesting.contains itemId ∧ s.now ≤ now then
        some { s.release itemId with
          db := ingestBook clock exceeds s.db itemId slug orders expectedIntervalS now committed
          ingesting := s.ingesting.filter fun id => !decide (id = itemId)
          now := now
          attempts := if committed then (itemId, now) :: s.attempts else s.attempts }
      else none
  | s, .ingestDrop itemId =>
      if s.ingesting.contains itemId then
        some { s.release itemId with ingesting := s.ingesting.filter fun id => !decide (id = itemId) }
      else none
  | s, .syncItems items => some { s with db := { s.db with sweepState := Lanes.syncItems s.db.sweepState items } }
  | s, .setHot ids => some { s with hot := ids }

end Steps

/-- How many loops and ingests are at work on an item. -/
def holders (s : State) (itemId : String) : Nat :=
  s.hotLoop.holds itemId + s.coldLoop.holds itemId + s.ingesting.count itemId

end State

/-! ### What a step does -/

section Moves

variable {clock : Clock} {exceeds : Int → Int → Bool}

/-- The steps that are taken, with their guards. -/
inductive Move (clock : Clock) (exceeds : Int → Int → Bool) (s : State) : Label → State → Prop
  | start {loop : Loop} {now : Int} : s.phase loop = .idle → s.now ≤ now →
      Move clock exceeds s (.start loop now) ({ s with now }.setPhase (.started now s.hot) loop)
  | read {loop : Loop} {now : Int} {hot : List String} : s.phase loop = .started now hot →
      Move clock exceeds s (.read loop) (s.setPhase (.read now hot (s.targets hot loop)) loop)
  | claim {loop : Loop} {now : Int} {hot : List String} {targets : List SweepTarget} {target : SweepTarget} :
      s.phase loop = .read now hot targets →
      (targets.find? fun target => s.wants clock now hot target loop) = some target →
      Move clock exceeds s (.claim loop) (s.beginSweep clock now target loop)
  | nothingDue {loop : Loop} {now : Int} {hot : List String} {targets : List SweepTarget} :
      s.phase loop = .read now hot targets →
      Move clock exceeds s (.claim loop) (s.setPhase .idle loop)
  | mark {loop : Loop} {target : SweepTarget} {started : Int} : s.phase loop = .claimed target → s.now ≤ started →
      Move clock exceeds s (.mark loop started)
        ({ s with
            db := s.db.markAttempt target.itemId (clock.ts started)
            now := started
            attempts := (target.itemId, started) :: s.attempts
            }.setPhase (.fetching target (s.expectedIntervalS loop) started) loop)
  | record {loop : Loop} {target : SweepTarget} {expectedIntervalS started : Int}
      (result : Except FetchError (List V2Order)) (committed : Bool) :
      s.phase loop = .fetching target expectedIntervalS started →
      Move clock exceeds s (.record loop result committed)
        ((({ s with
            db := recordSweep clock exceeds s.db target loop.lane result started expectedIntervalS committed
            } : State).release target.itemId).setPhase .idle loop)
  | drop {loop : Loop} {itemId : String} : (s.phase loop).held = some itemId →
      Move clock exceeds s (.drop loop) ((s.release itemId).setPhase .idle loop)
  | dropUnclaimed {loop : Loop} : (s.phase loop).held = none →
      Move clock exceeds s (.drop loop) (s.setPhase .idle loop)
  | ingestClaim {itemId : String} : itemId ∉ s.inFlight →
      Move clock exceeds s (.ingestClaim itemId) { s.claim itemId with ingesting := itemId :: s.ingesting }
  | ingestRecord {itemId : String} (slug : String) (orders : List V2Order) (expectedIntervalS : Int) {now : Int}
      (committed : Bool) : itemId ∈ s.ingesting → s.now ≤ now →
      Move clock exceeds s (.ingestRecord itemId slug orders expectedIntervalS now committed)
        { s.release itemId with
          db := ingestBook clock exceeds s.db itemId slug orders expectedIntervalS now committed
          ingesting := s.ingesting.filter fun id => !decide (id = itemId)
          now := now
          attempts := if committed then (itemId, now) :: s.attempts else s.attempts }
  | ingestDrop {itemId : String} : itemId ∈ s.ingesting →
      Move clock exceeds s (.ingestDrop itemId)
        { s.release itemId with ingesting := s.ingesting.filter fun id => !decide (id = itemId) }
  | syncItems (items : List (String × String)) : Move clock exceeds s (.syncItems items)
      { s with db := { s.db with sweepState := Lanes.syncItems s.db.sweepState items } }
  | setHot (ids : List String) : Move clock exceeds s (.setHot ids) { s with hot := ids }

theorem step_move {s t : State} {l : Label} (h : s.step clock exceeds l = some t) : Move clock exceeds s l t := by
  cases l with
  | start loop now =>
      simp only [State.step] at h
      split at h
      · next hidle =>
          split at h
          · next hnow =>
              cases h
              exact .start hidle hnow
          · cases h
      · cases h
  | read loop =>
      simp only [State.step] at h
      split at h
      · next hstarted =>
          cases h
          exact .read hstarted
      · cases h
  | claim loop =>
      simp only [State.step] at h
      split at h
      · next hread =>
          split at h
          · next hfound =>
              cases h
              exact .claim hread hfound
          · cases h
            exact .nothingDue hread
      · cases h
  | mark loop started =>
      simp only [State.step] at h
      split at h
      · next hclaimed =>
          split at h
          · next hnow =>
              cases h
              exact .mark hclaimed hnow
          · cases h
      · cases h
  | record loop result committed =>
      simp only [State.step] at h
      split at h
      · next hfetching =>
          cases h
          exact .record result committed hfetching
      · cases h
  | drop loop =>
      simp only [State.step] at h
      split at h
      · next hheld =>
          cases h
          exact .drop hheld
      · next hheld =>
          cases h
          exact .dropUnclaimed hheld
  | ingestClaim itemId =>
      simp only [State.step] at h
      split at h
      · cases h
      · next hfree =>
          cases h
          exact .ingestClaim (by simpa using hfree)
  | ingestRecord itemId slug orders expectedIntervalS now committed =>
      simp only [State.step] at h
      split at h
      · next hguard =>
          cases h
          exact .ingestRecord slug orders expectedIntervalS committed (by simpa using hguard.1) hguard.2
      · cases h
  | ingestDrop itemId =>
      simp only [State.step] at h
      split at h
      · next hguard =>
          cases h
          exact .ingestDrop (by simpa using hguard)
      · cases h
  | syncItems items =>
      cases h
      exact .syncItems items
  | setHot ids =>
      cases h
      exact .setHot ids

theorem step_claim {s : State} {loop : Loop} {now : Int} {hot : List String} {targets : List SweepTarget}
    {target : SweepTarget} (hread : s.phase loop = .read now hot targets)
    (hfound : (targets.find? fun target => s.wants clock now hot target loop) = some target) :
    s.step clock exceeds (.claim loop) = some (s.beginSweep clock now target loop) := by
  rw [State.step, hread]
  simp only [hfound]

end Moves

/-! ### One holder for each claim -/

section Holders

variable {clock : Clock} {exceeds : Int → Int → Bool}

/-- Every claimed item has one holder, every other item none. -/
def Exclusive (s : State) : Prop :=
  ∀ itemId, (itemId ∈ s.inFlight → s.holders itemId = 1) ∧ (itemId ∉ s.inFlight → s.holders itemId = 0)

theorem holds_self {p : Phase} {itemId : String} (h : p.held = some itemId) : p.holds itemId = 1 := if_pos h

theorem holds_other {p : Phase} {itemId other : String} (h : p.held = some itemId) (hne : other ≠ itemId) :
    p.holds other = 0 := by
  rw [Phase.holds, h, if_neg fun heq => hne (Option.some.inj heq).symm]

theorem holds_none {p : Phase} (h : p.held = none) (itemId : String) : p.holds itemId = 0 := by
  rw [Phase.holds, h]
  rfl

/-- One holder more or less when a loop moves on. -/
theorem holders_setPhase (s : State) (p : Phase) (loop : Loop) (itemId : String) :
    (s.setPhase p loop).holders itemId + (s.phase loop).holds itemId = s.holders itemId + p.holds itemId := by
  cases loop with
  | hot =>
      simp only [State.holders, State.setPhase, State.phase]
      omega
  | cold =>
      simp only [State.holders, State.setPhase, State.phase]
      omega

@[simp] theorem inFlight_setPhase (s : State) (p : Phase) (loop : Loop) :
    (s.setPhase p loop).inFlight = s.inFlight := by
  cases loop with
  | hot | cold => rfl

theorem mem_inFlight_release {s : State} {itemId other : String} :
    other ∈ (s.release itemId).inFlight ↔ other ∈ s.inFlight ∧ other ≠ itemId := by
  simp [State.release]

/-- A loop that goes on with its claim, or without one. -/
theorem Exclusive.setPhase {s : State} (h : Exclusive s) {p : Phase} {loop : Loop} (hs : (s.phase loop).held = p.held) :
    Exclusive (s.setPhase p loop) := by
  intro itemId
  have hcount := holders_setPhase s p loop itemId
  have hsame : (s.phase loop).holds itemId = p.holds itemId := by rw [Phase.holds, hs, Phase.holds]
  have hholders : (s.setPhase p loop).holders itemId = s.holders itemId := by omega
  rw [inFlight_setPhase, hholders]
  exact h itemId

/-- A loop that takes a free claim. -/
theorem Exclusive.take {s : State} (h : Exclusive s) {target : SweepTarget} {loop : Loop}
    (hs : (s.phase loop).held = none) (hfree : target.itemId ∉ s.inFlight) :
    Exclusive ((s.claim target.itemId).setPhase (.claimed target) loop) := by
  intro itemId
  have hcount := holders_setPhase (s.claim target.itemId) (.claimed target) loop itemId
  have hphase : ((s.claim target.itemId).phase loop).held = none := by
    cases loop with
    | hot | cold => exact hs
  have hsame : (s.claim target.itemId).holders itemId = s.holders itemId := rfl
  rw [holds_none hphase, hsame] at hcount
  have hmem : itemId ∈ ((s.claim target.itemId).setPhase (.claimed target) loop).inFlight ↔
      itemId = target.itemId ∨ itemId ∈ s.inFlight := by
    rw [inFlight_setPhase, State.claim, List.mem_cons]
  rw [hmem]
  by_cases hitem : itemId = target.itemId
  · subst hitem
    have hself : (Phase.claimed target).holds target.itemId = 1 := holds_self rfl
    have hzero := (h target.itemId).2 hfree
    exact ⟨fun _ => by omega, fun hnot => absurd (.inl rfl) hnot⟩
  · have hother : (Phase.claimed target).holds itemId = 0 := holds_other rfl hitem
    have hholders : ((s.claim target.itemId).setPhase (.claimed target) loop).holders itemId = s.holders itemId := by
      omega
    rw [hholders, or_iff_right hitem]
    exact h itemId

/-- A loop that gives its claim back. -/
theorem Exclusive.release {s : State} (h : Exclusive s) {itemId : String} {loop : Loop}
    (hs : (s.phase loop).held = some itemId) : Exclusive ((s.release itemId).setPhase .idle loop) := by
  intro other
  have hcount := holders_setPhase (s.release itemId) .idle loop other
  have hphase : ((s.release itemId).phase loop).held = some itemId := by
    cases loop with
    | hot | cold => exact hs
  have hsame : (s.release itemId).holders other = s.holders other := rfl
  have hidle : Phase.idle.holds other = 0 := holds_none rfl other
  rw [hsame, hidle] at hcount
  rw [inFlight_setPhase, mem_inFlight_release]
  by_cases hother : other = itemId
  · subst hother
    have hself : ((s.release other).phase loop).holds other = 1 := holds_self hphase
    have hone := (h other).1
    have hzero := (h other).2
    refine ⟨fun hmem => absurd rfl hmem.2, fun _ => ?_⟩
    by_cases hin : other ∈ s.inFlight
    · have := hone hin
      omega
    · have := hzero hin
      omega
  · have hnone : ((s.release itemId).phase loop).holds other = 0 := holds_other hphase hother
    have hholders : ((s.release itemId).setPhase .idle loop).holders other = s.holders other := by omega
    rw [hholders, and_iff_left hother]
    exact h other

/-- An ingest that gives its claim back. -/
theorem Exclusive.ingested {s : State} (h : Exclusive s) {itemId : String} (hmem : itemId ∈ s.ingesting) :
    Exclusive { s.release itemId with ingesting := s.ingesting.filter fun id => !decide (id = itemId) } := by
  intro other
  have hflight : other ∈ (s.release itemId).inFlight ↔ other ∈ s.inFlight ∧ other ≠ itemId := mem_inFlight_release
  by_cases hother : other = itemId
  · subst hother
    refine ⟨fun hin => absurd rfl (hflight.mp hin).2, fun _ => ?_⟩
    have hpos := List.count_pos_iff.mpr hmem
    have hnone : (s.ingesting.filter fun id => !decide (id = other)).count other = 0 :=
      List.count_eq_zero.mpr fun hin => by simp at hin
    have hone := (h other).1
    have hzero := (h other).2
    simp only [State.holders] at hone hzero ⊢
    simp only [State.release, hnone]
    by_cases hin : other ∈ s.inFlight
    · have := hone hin
      omega
    · have := hzero hin
      omega
  · have hsame : (s.ingesting.filter fun id => !decide (id = itemId)).count other = s.ingesting.count other :=
      List.count_filter (by simpa using hother)
    have hholders : State.holders { s.release itemId with
        ingesting := s.ingesting.filter fun id => !decide (id = itemId) } other = s.holders other := by
      simp only [State.holders, State.release, hsame]
    rw [hholders]
    refine ⟨fun hin => (h other).1 (hflight.mp hin).1, fun hout => ?_⟩
    exact (h other).2 fun hin => hout (hflight.mpr ⟨hin, hother⟩)

/-- An ingest that takes a free claim. -/
theorem Exclusive.ingest {s : State} (h : Exclusive s) {itemId : String} (hfree : itemId ∉ s.inFlight) :
    Exclusive { s.claim itemId with ingesting := itemId :: s.ingesting } := by
  intro other
  have hholders : State.holders { s.claim itemId with ingesting := itemId :: s.ingesting } other =
      s.holders other + if itemId = other then 1 else 0 := by
    simp only [State.holders, State.claim, List.count_cons, beq_iff_eq, Nat.add_assoc]
  rw [hholders, State.claim, List.mem_cons]
  by_cases hother : other = itemId
  · subst hother
    have hzero := (h other).2 hfree
    rw [if_pos rfl]
    exact ⟨fun _ => by omega, fun hnot => absurd (.inl rfl) hnot⟩
  · rw [if_neg (Ne.symm hother), or_iff_right hother]
    exact h other

/-- No step lets two at one item, and none leaves a claim behind. -/
theorem exclusive_step {s t : State} {l : Label} (h : Exclusive s) (hstep : s.step clock exceeds l = some t) :
    Exclusive t := by
  cases step_move hstep with
  | @start loop now hidle _ =>
      have hnow : Exclusive { s with now } := h
      apply hnow.setPhase
      have hheld := congrArg Phase.held hidle
      cases loop with
      | hot | cold => exact hheld
  | read hstarted =>
      have hheld := congrArg Phase.held hstarted
      exact h.setPhase hheld
  | @claim loop now hot targets target hread hfound =>
      have hfree : target.itemId ∉ s.inFlight := by
        have hwants := List.find?_some hfound
        cases loop with
        | hot | cold =>
            rw [State.wants, Bool.and_eq_true] at hwants
            simpa using hwants.2
      have htaken := h.take (congrArg Phase.held hread) hfree
      cases loop with
      | hot => exact htaken
      | cold =>
          intro itemId
          have hitem := htaken itemId
          simp only [State.beginSweep, State.passUntil]
          split
          · exact hitem
          · exact hitem
  | nothingDue hread =>
      have hheld := congrArg Phase.held hread
      exact h.setPhase hheld
  | @mark loop target started hclaimed _ =>
      have hmarked : Exclusive { s with
          db := s.db.markAttempt target.itemId (clock.ts started)
          now := started
          attempts := (target.itemId, started) :: s.attempts } := h
      apply hmarked.setPhase
      have hheld := congrArg Phase.held hclaimed
      cases loop with
      | hot | cold => exact hheld
  | @record loop target expectedIntervalS started result committed hfetching =>
      have hstored : Exclusive { s with
          db := recordSweep clock exceeds s.db target loop.lane result started expectedIntervalS committed } := h
      apply hstored.release
      have hheld := congrArg Phase.held hfetching
      cases loop with
      | hot | cold => exact hheld
  | drop hheld => exact h.release hheld
  | dropUnclaimed hheld => exact h.setPhase hheld
  | ingestClaim hfree => exact h.ingest hfree
  | ingestRecord slug orders expectedIntervalS committed hmem _ => exact h.ingested hmem
  | ingestDrop hmem => exact h.ingested hmem
  | syncItems items => exact h
  | setHot ids => exact h

/-- No loop at work and nothing claimed. -/
structure Idle (s : State) : Prop where
  hotLoop : s.hotLoop = .idle
  coldLoop : s.coldLoop = .idle
  inFlight : s.inFlight = []
  ingesting : s.ingesting = []

theorem Idle.exclusive {s : State} (h : Idle s) : Exclusive s := by
  intro itemId
  have hnone : s.holders itemId = 0 := by
    rw [State.holders, h.hotLoop, h.coldLoop, h.ingesting]
    rfl
  rw [h.inFlight]
  exact ⟨fun hmem => absurd hmem List.not_mem_nil, fun _ => hnone⟩

theorem exclusive_run {s t : State} {ls : List Label} (h : Exclusive s)
    (run : Trace (State.step clock exceeds) s ls t) : Exclusive t :=
  run.invariant (fun _ _ _ hs hstep => exclusive_step hs hstep) h

/-- Whatever the order of the steps, no item is worked on by two loops or ingests at once, and the claims are exactly
those of the work going on: a sweep that ends in an error or a panic leaves none behind. -/
theorem one_holder {s t : State} {ls : List Label} (h : Idle s) (run : Trace (State.step clock exceeds) s ls t)
    (itemId : String) : t.holders itemId ≤ 1 ∧ (itemId ∈ t.inFlight ↔ t.holders itemId = 1) := by
  obtain ⟨hone, hzero⟩ := exclusive_run h.exclusive run itemId
  by_cases hmem : itemId ∈ t.inFlight
  · have hcount := hone hmem
    exact ⟨by omega, fun _ => hcount, fun _ => hmem⟩
  · have hcount := hzero hmem
    exact ⟨by omega, fun hin => absurd hin hmem, fun heq => by omega⟩

/-! #### An item in the cold lane -/

def coldClock : Clock := .ofSeconds [(0, "1970-01-01T00:00:00Z"), (5, "1970-01-01T00:00:05Z")]

def coldItem (lastAttemptAt : Option String) : SweepState := ⟨"item1", "slug1", true, none, none, lastAttemptAt, 60, 0⟩

def coldStart : State where
  db := ⟨.empty, [], [], ⟨[coldItem none], by decide⟩⟩
  hot := []
  inFlight := []
  coldPassStartedAt := none
  lastColdPassSeconds := none
  hotLoop := .idle
  coldLoop := .idle
  ingesting := []
  now := 0
  attempts := []

theorem coldStart_idle : Idle coldStart := ⟨rfl, rfl, rfl, rfl⟩

/-- One active item is the one candidate. -/
theorem coldTargets_single {t : Table SweepState.itemId} {s : SweepState} (h : t.rows = [s])
    (hactive : s.active = true) :
    coldTargets t coldCandidates = [target s] := by
  rw [coldTargets, activeRows, h, List.filter_cons_of_pos hactive, List.filter_nil, byRank_of_pairwise]
  · rfl
  · exact List.pairwise_singleton _ _

def coldClaimed : State where
  db := coldStart.db
  hot := []
  inFlight := ["item1"]
  coldPassStartedAt := some 0
  lastColdPassSeconds := none
  hotLoop := .idle
  coldLoop := .claimed (target (coldItem none))
  ingesting := []
  now := 0
  attempts := []

theorem coldClaimed_run : Trace (State.step coldClock exceeds) coldStart [.start .cold 0, .read .cold, .claim .cold]
    coldClaimed := by
  apply Trace.cons rfl
  apply Trace.cons rfl
  apply Trace.single
  have htargets : coldTargets coldStart.db.sweepState coldCandidates = [target (coldItem none)] :=
    coldTargets_single rfl rfl
  have hfound : ((coldTargets coldStart.db.sweepState coldCandidates).find? fun y =>
      State.wants coldClock coldStart 0 [] y .cold) = some (target (coldItem none)) := by
    rw [htargets]
    rfl
  have hclaim := @step_claim coldClock exceeds
    ({ coldStart with now := 0 }.setPhase (.read 0 [] (coldTargets coldStart.db.sweepState coldCandidates)) .cold)
    .cold 0 [] _ _ rfl hfound
  exact hclaim

/-- The cold loop holds the item, and nothing else does. -/
theorem one_holder_claimed : coldClaimed.holders "item1" ≤ 1 ∧
    ("item1" ∈ coldClaimed.inFlight ↔ coldClaimed.holders "item1" = 1) :=
  one_holder coldStart_idle (@coldClaimed_run fun _ _ => false) "item1"

end Holders

end Quantframe.Collector.Lanes
