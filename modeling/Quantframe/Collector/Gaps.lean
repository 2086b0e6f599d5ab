import Mathlib.Algebra.Order.Ring.Rat
import Mathlib.Data.List.Induction
import Mathlib.Tactic.Linarith
import Mathlib.Tactic.NormNum
import Quantframe.Collector.Runner

/-!
# The gap rule

A recorded book carries the time its sweep began, not the time it was fetched, and the gap is the
time between two of those. What lies between is the wait for the limiter.
-/

namespace Quantframe.Collector

open Lib
open Market (Lane)

/-- The comparison with a gap factor. -/
def exceedsFactor (factor : Rat) (gap expected : Int) : Bool := decide (factor * expected < gap)

/-- The item is listed and was never swept. -/
structure Fresh (db : Tables) (itemId : String) : Prop where
  listed : ∃ s, db.sweepState.lookup itemId = some s ∧ s.lastSweptAt = none
  unseen : db.liveSet itemId = []

/-- What the tables know of the book recorded last. -/
structure Remembers (clock : Clock) (db : Tables) (itemId : String) (last : Option Recorded) : Prop where
  state : ∃ s, db.sweepState.lookup itemId = some s ∧
    s.lastSweptAt = last.map (fun r => clock.ts r.sweptAt) ∧
      ∀ r, last = some r → s.expectedIntervalS = r.expectedIntervalS
  unseen : last = none → db.liveSet itemId = []

variable {clock : Clock} {exceeds : Int → Int → Bool} {itemId : String} {db : Tables}
  {last : Option Recorded}

theorem Fresh.remembers (h : Fresh db itemId) : Remembers clock db itemId none := by
  obtain ⟨s, hs, hnever⟩ := h.listed
  refine ⟨⟨s, hs, hnever, ?_⟩, fun _ => h.unseen⟩
  rintro r ⟨⟩

theorem Remembers.setState (h : Remembers clock db itemId last) {f : SweepState → SweepState}
    {hf : ∀ s, (f s).itemId = s.itemId} (hswept : ∀ s, (f s).lastSweptAt = s.lastSweptAt)
    (hexpected : ∀ s, (f s).expectedIntervalS = s.expectedIntervalS) :
    Remembers clock (db.setState itemId f hf) itemId last := by
  obtain ⟨s, hs, hlast, hinterval⟩ := h.state
  refine ⟨⟨f s, ?_, (hswept s).trans hlast, fun r hr => (hexpected s).trans (hinterval r hr)⟩, h.unseen⟩
  rw [Tables.setState, Table.lookup_update, if_pos rfl, hs, Option.map_some]

theorem Remembers.applySweep {input : SweepInput} {r : Recorded} (h : Remembers clock db itemId last)
    (hitem : input.itemId = itemId) (hat : input.sweptAt = r.sweptAt)
    (hexpected : input.expectedIntervalS = r.expectedIntervalS) :
    Remembers clock (applySweep clock db input).1 itemId (some r) := by
  subst hitem
  obtain ⟨s, hs, _, _⟩ := h.state
  have hset := Table.lookup_update db.sweepState input.itemId
    (fun s => s.swept (clock.ts input.sweptAt) input.expectedIntervalS) (fun _ => rfl) input.itemId
  rw [if_pos rfl, hs, Option.map_some] at hset
  refine ⟨⟨s.swept (clock.ts input.sweptAt) input.expectedIntervalS, hset, ?_, ?_⟩, ?_⟩
  · rw [SweepState.swept, hat, Option.map_some]
  · rintro r' hr'
    rw [← Option.some.inj hr']
    exact hexpected
  · rintro ⟨⟩

/-- The tables a visit hands to `apply_sweep`. -/
def Visit.marked (clock : Clock) (itemId : String) (db : Tables) : Visit → Tables
  | .sweep _ _ _ started _ _ => db.markAttempt itemId (clock.ts started)
  | .ingest .. => db

/-- The sweep a recorded book amounts to. -/
def Recorded.input (r : Recorded) (exceeds : Int → Int → Bool) (itemId : String) : SweepInput :=
  ⟨itemId, laneName r.lane, r.orders, r.sweptAt, r.expectedIntervalS, exceeds⟩

theorem Visit.apply_recorded {v : Visit} {r : Recorded} (h : v.recorded = some r) :
    v.apply clock exceeds itemId db =
      (applySweep clock (v.marked clock itemId db) (r.input exceeds itemId)).1 := by
  cases v with
  | sweep target lane expected started attempts committed =>
      obtain ⟨a, ha, hresult⟩ := Option.bind_eq_some_iff.mp h
      simp only [Visit.apply, Collector.sweep, ha]
      cases horders : a.result with
      | error e =>
          rw [horders] at hresult
          cases hresult
      | ok orders =>
          rw [horders] at hresult
          obtain ⟨hcommitted, hr⟩ := Option.ite_none_right_eq_some.mp hresult
          cases hr
          rw [recordSweep, Sweep.apply, if_pos hcommitted]
          rfl
  | ingest slug orders fetchedAt expected now committed =>
      obtain ⟨hcommitted, hr⟩ := Option.ite_none_right_eq_some.mp h
      cases hr
      rw [Visit.apply, ingestBook, recordSweep, Sweep.apply, if_pos hcommitted]
      rfl

/-- A failure is written to `sweep_state`, beside what the next sweep is compared with. -/
theorem recordSweep_error (target : SweepTarget) (lane : Lane) (e : FetchError)
    (started expected : Int) (committed : Bool) :
    ∃ f hf, (∀ s : SweepState, (f s).lastSweptAt = s.lastSweptAt) ∧
      (∀ s : SweepState, (f s).expectedIntervalS = s.expectedIntervalS) ∧
        recordSweep clock exceeds db target lane (.error e) started expected committed =
          db.setState target.itemId f hf := by
  cases e with
  | notFound =>
      exact ⟨fun s => { s with active := false }, fun _ => rfl, fun _ => rfl, fun _ => rfl, rfl⟩
  | blocked | rateLimited =>
      exact ⟨fun s => { s with lastAttemptAt := target.lastAttemptAt }, fun _ => rfl, fun _ => rfl,
        fun _ => rfl, rfl⟩
  | transient | invalid =>
      exact ⟨fun s => { s with consecutiveErrors := s.consecutiveErrors + 1 }, fun _ => rfl,
        fun _ => rfl, fun _ => rfl, rfl⟩

/-- A visit that records no book changes neither the orders nor the sweep it remembers. -/
theorem Visit.apply_unrecorded {v : Visit} (h : v.recorded = none)
    (hr : Remembers clock db itemId last) :
    Remembers clock (v.apply clock exceeds itemId db) itemId last ∧
      (v.apply clock exceeds itemId db).vanishedOrders = db.vanishedOrders := by
  cases v with
  | sweep target lane expected started attempts committed =>
      have hmarked : Remembers clock (db.markAttempt itemId (clock.ts started)) itemId last :=
        hr.setState (fun _ => rfl) fun _ => rfl
      simp only [Visit.apply, Collector.sweep]
      cases ha : fetchWithRetries 0 attempts with
      | none => exact ⟨hmarked, rfl⟩
      | some a =>
          simp only [Visit.recorded, ha, Option.bind_some] at h
          dsimp only
          cases hout : a.result with
          | error e =>
              obtain ⟨f, hf, hswept, hexpected, hsame⟩ := @recordSweep_error clock exceeds
                (db.markAttempt itemId (clock.ts started)) { target with itemId } lane e started expected
                committed
              rw [hsame]
              exact ⟨hmarked.setState hswept hexpected, rfl⟩
          | ok orders =>
              simp only [hout, ite_eq_right_iff, reduceCtorEq, imp_false, Bool.not_eq_true] at h
              subst h
              exact ⟨hmarked, rfl⟩
  | ingest slug orders fetchedAt expected now committed =>
      have hcommitted : committed = false := by
        cases committed with
        | false => rfl
        | true => cases h
      subst hcommitted
      exact ⟨hr, rfl⟩

theorem Remembers.marked (h : Remembers clock db itemId last) (v : Visit) :
    Remembers clock (v.marked clock itemId db) itemId last := by
  cases v with
  | sweep => exact h.setState (fun _ => rfl) fun _ => rfl
  | ingest => exact h

theorem lastRecorded_snoc (history : List Visit) (v : Visit) :
    lastRecorded (history ++ [v]) = v.recorded.or (lastRecorded history) := by
  rw [lastRecorded, List.filterMap_append]
  cases hv : v.recorded with
  | none => rw [List.filterMap_cons_none hv, List.filterMap_nil, List.append_nil, Option.none_or]; rfl
  | some r =>
      rw [List.filterMap_cons_some hv, List.filterMap_nil, List.getLast?_concat, Option.some_or]

/-- The run lemma. -/
theorem afterVisits_remembers (h : Fresh db itemId) (history : List Visit) :
    Remembers clock (afterVisits clock exceeds itemId db history) itemId (lastRecorded history) := by
  induction history using List.reverseRecOn with
  | nil => exact h.remembers
  | append_singleton history v ih =>
      rw [afterVisits, List.foldl_append, lastRecorded_snoc]
      cases hv : v.recorded with
      | none => exact (Visit.apply_unrecorded hv ih).1
      | some r =>
          rw [List.foldl_cons, List.foldl_nil, Visit.apply_recorded hv]
          exact (ih.marked v).applySweep rfl rfl rfl

/-! ### Which vanishes are recorded -/

/-- The time between the start of a sweep and the fetch of its book; negative for an ingest. -/
def Recorded.wait (r : Recorded) : Int := r.fetchedAt - r.sweptAt

/-- The nanoseconds the gap rule allows between two books. -/
def allowed (factor : Rat) (last r : Recorded) : Rat :=
  factor * (max last.expectedIntervalS r.expectedIntervalS : Int) * 1000000000

/-- The book was fetched no later after the one before it than the gap rule allows. -/
def InTime (factor : Rat) (last r : Recorded) : Prop :=
  ((r.fetchedAt - last.fetchedAt : Int) : Rat) ≤ allowed factor last r

/-- The gap as it is computed from the recorded times, in whole seconds. -/
def recordedGap (last r : Recorded) : Int := numSeconds (r.sweptAt - wholeSeconds last.sweptAt)

section Rule

variable (clock : Clock) (factor : Rat) (itemId : String) (db : Tables) (history : List Visit) (v : Visit)

/-- The tables before the visit. -/
def beforeVisit : Tables := afterVisits clock (exceedsFactor factor) itemId db history

/-- The rows the visit adds to `vanished_orders`. -/
def newVanishes : List VanishedRow :=
  (v.apply clock (exceedsFactor factor) itemId
    (beforeVisit clock factor itemId db history)).vanishedOrders.drop
      (beforeVisit clock factor itemId db history).vanishedOrders.length

/-- A full vanish is recorded as pending only for a book fetched in time, and as gap otherwise. -/
def GapRule : Prop :=
  ∀ r, v.recorded = some r → ∀ row ∈ newVanishes clock factor itemId db history v, row.kind = "full" →
    (row.status = "pending" → ∃ last, lastRecorded history = some last ∧ InTime factor last r) ∧
      ∀ last, lastRecorded history = some last → ¬ InTime factor last r → row.status = "gap"

/-- An order of the live set is missing from the book. -/
def Misses (r : Recorded) : Prop :=
  ∃ o ∈ (beforeVisit clock factor itemId db history).liveSet itemId,
    ∀ x ∈ r.orders, x.visible = true → x.id ≠ o.orderId

/-- A book that misses an order, and that the recorded times let pass, was not waited for longer than
the one before it by more than those times leave. -/
def WaitFits : Prop :=
  ∀ r, v.recorded = some r → ∀ last, lastRecorded history = some last →
    Misses clock factor itemId db history r →
      (recordedGap last r : Rat) ≤ factor * (max last.expectedIntervalS r.expectedIntervalS : Int) →
        (r.wait : Rat) ≤ last.wait + (allowed factor last r - (r.sweptAt - last.sweptAt : Int))

end Rule

theorem inTime_iff_wait {factor : Rat} {last r : Recorded} :
    InTime factor last r ↔
      (r.wait : Rat) ≤ last.wait + (allowed factor last r - (r.sweptAt - last.sweptAt : Int)) := by
  simp only [InTime, Recorded.wait]
  push_cast
  constructor
  · intro h
    linarith
  · intro h
    linarith

theorem mem_vanishRows_full {sweptAt status : String} {gap : Option Int} {diff : OrderDiff}
    {row : VanishedRow} (hrow : row ∈ vanishRows itemId sweptAt gap status diff)
    (hfull : row.kind = "full") : row.status = status ∧ row.order ∈ diff.vanished := by
  rcases List.mem_append.mp hrow with h | h
  · obtain ⟨o, ho, rfl⟩ := List.mem_map.mp h
    exact ⟨rfl, ho⟩
  · obtain ⟨c, _, rfl⟩ := List.mem_map.mp h
    have hkind : "partial" = "full" := hfull
    exact absurd hkind (by decide)

theorem exists_vanishRow {sweptAt status : String} {gap : Option Int} {diff : OrderDiff} {o : SeenOrder}
    (h : o ∈ diff.vanished) :
    ∃ row ∈ vanishRows itemId sweptAt gap status diff, row.kind = "full" ∧ row.status = status :=
  ⟨_, List.mem_append_left _ (List.mem_map_of_mem h), rfl, rfl⟩

theorem mem_diff_vanished {previous : List SeenOrder} {orders : List V2Order} {sweptAt : String}
    {o : SeenOrder} : o ∈ (diffOrders previous (toSeen orders sweptAt)).vanished ↔
      o ∈ previous ∧ ∀ x ∈ orders, x.visible = true → x.id ≠ o.orderId := by
  simp only [diffOrders, List.mem_filter, decide_eq_true_eq, List.mem_map, mem_toSeen, not_exists,
    not_and]
  refine and_congr_right fun _ => ⟨fun h x hx hv hid => ?_, fun h row ⟨x, hx, hv, hrow⟩ hid => ?_⟩
  · exact h (x.toSeen sweptAt) ⟨x, hx, hv, rfl⟩ hid
  · subst hrow
    exact h x hx hv hid

/-- The gap as `apply_sweep` finds it. -/
def storedGap (clock : Clock) (factor : Rat) (db : Tables) (itemId : String) (r : Recorded) : Bool :=
  (gapSeconds clock (db.sweepState.lookup itemId) r.sweptAt).any fun g =>
    exceedsFactor factor g
      (max (((db.sweepState.lookup itemId).map SweepState.expectedIntervalS).getD 0) r.expectedIntervalS)

theorem newVanishes_eq {factor : Rat} {history : List Visit} {v : Visit} {r : Recorded}
    (hv : v.recorded = some r) :
    ∃ gap, newVanishes clock factor itemId db history v =
      vanishRows itemId (clock.ts r.sweptAt) gap
        (if storedGap clock factor (v.marked clock itemId (beforeVisit clock factor itemId db history))
          itemId r then "gap" else "pending")
        (diffOrders ((beforeVisit clock factor itemId db history).liveSet itemId)
          (toSeen r.orders (clock.ts r.sweptAt))) := by
  have hvanished : (v.marked clock itemId (beforeVisit clock factor itemId db history)).vanishedOrders =
      (beforeVisit clock factor itemId db history).vanishedOrders := by
    cases v <;> rfl
  have hlive : (v.marked clock itemId (beforeVisit clock factor itemId db history)).liveSet itemId =
      (beforeVisit clock factor itemId db history).liveSet itemId := by
    cases v <;> rfl
  refine ⟨gapSeconds clock ((v.marked clock itemId (beforeVisit clock factor itemId db
    history)).sweepState.lookup itemId) r.sweptAt, ?_⟩
  rw [newVanishes, Visit.apply_recorded hv, applySweep]
  dsimp only
  rw [hvanished, List.drop_left, ← hlive]
  rfl

theorem storedGap_eq {factor : Rat} {last r : Recorded} (h : Remembers clock db itemId (some last))
    (hreads : clock.Reads last.sweptAt) :
    storedGap clock factor db itemId r = true ↔
      factor * (max last.expectedIntervalS r.expectedIntervalS : Int) < (recordedGap last r : Rat) := by
  obtain ⟨s, hs, hlast, hexpected⟩ := h.state
  rw [Clock.Reads] at hreads
  simp only [storedGap, gapSeconds, hs, Option.bind_some, hlast, Option.map_some, hreads,
    hexpected last rfl, Option.getD_some, Option.any_some, exceedsFactor, decide_eq_true_eq, recordedGap]

/-- The gap rule is kept by a visit exactly when its wait fits. -/
theorem gapRule_iff (clock : Clock) (factor : Rat) (itemId : String) (db : Tables)
    (history : List Visit) (v : Visit) (hfresh : Fresh db itemId)
    (hreads : ∀ last, lastRecorded history = some last → clock.Reads last.sweptAt) :
    GapRule clock factor itemId db history v ↔ WaitFits clock factor itemId db history v := by
  have hr : Remembers clock (beforeVisit clock factor itemId db history) itemId (lastRecorded history) :=
    afterVisits_remembers hfresh history
  cases hv : v.recorded with
  | none => simp only [GapRule, WaitFits, hv, reduceCtorEq, false_implies, implies_true]
  | some r =>
      obtain ⟨gap, hrows⟩ := @newVanishes_eq clock itemId db factor history v r hv
      simp only [GapRule, WaitFits, hv, Option.some.injEq, forall_eq', hrows]
      cases hlast : lastRecorded history with
      | none =>
          have hempty := hr.unseen hlast
          simp only [reduceCtorEq, false_implies, implies_true, iff_true]
          intro row hrow hfull
          have hmem := (mem_diff_vanished.mp (mem_vanishRows_full hrow hfull).2).1
          rw [hempty] at hmem
          exact absurd hmem List.not_mem_nil
      | some last =>
          rw [hlast] at hr
          have hgap := @storedGap_eq clock itemId _ factor last r (hr.marked v) (hreads last hlast)
          simp only [Option.some.injEq, forall_eq', exists_eq_left', ← inTime_iff_wait]
          constructor
          · rintro hrule ⟨o, ho, hmissing⟩ hpasses
            obtain ⟨row, hrow, hfull, hstatus⟩ := exists_vanishRow (mem_diff_vanished.mpr ⟨ho, hmissing⟩)
            refine (hrule row hrow hfull).1 ?_
            rw [hstatus, if_neg]
            rw [hgap, not_lt]
            exact hpasses
          · intro hfits row hrow hfull
            obtain ⟨hstatus, hvanished⟩ := mem_vanishRows_full hrow hfull
            obtain ⟨ho, hmissing⟩ := mem_diff_vanished.mp hvanished
            rw [hstatus]
            by_cases hstored : factor * (max last.expectedIntervalS r.expectedIntervalS : Int) <
                (recordedGap last r : Rat)
            · rw [if_pos (hgap.mpr hstored)]
              exact ⟨fun h => absurd h (by decide), fun _ => rfl⟩
            · have hin := hfits ⟨row.order, ho, hmissing⟩ (not_lt.mp hstored)
              exact ⟨fun _ => hin, fun hlate => absurd hin hlate⟩

/-! ### A sweep that waited behind the breaker -/

/-- The clock at the two times of the sample. -/
def sampleClock : Clock where
  ts nanos := if nanos = 0 then "1970-01-01T00:00:00Z" else "1970-01-01T00:05:00Z"
  parseTs text :=
    if text = "1970-01-01T00:00:00Z" then some 0
    else if text = "1970-01-01T00:05:00Z" then some 300000000000
    else none

theorem listedItem_once : (([⟨"item1", "slug1", true, none, none, none, 0, 0⟩] : List SweepState).map
    SweepState.itemId).Nodup := List.nodup_singleton _

def listedItem : Tables where
  lastSeenOrders := .empty
  vanishedOrders := []
  sweepSummary := []
  sweepState := ⟨[⟨"item1", "slug1", true, none, none, none, 0, 0⟩], listedItem_once⟩

theorem listedItem_fresh : Fresh listedItem "item1" := ⟨⟨_, rfl, rfl⟩, rfl⟩

def sampleOrder : V2Order :=
  ⟨"s1", "sell", 20, 1, some 0, none, none, none, none, true, "item1", ⟨"u1", "u1", "ingame"⟩⟩

def hotSweep (started fetchedAt : Int) (orders : List V2Order) : Visit :=
  .sweep ⟨"item1", "slug1", none⟩ .hot 300 started [⟨fetchedAt, .ok orders⟩] true

/-- The second sweep began in time and got its slot after an hour: the order it misses is pending. -/
theorem late_book_is_pending :
    ¬ GapRule sampleClock 3 "item1" listedItem [hotSweep 0 1000000000 [sampleOrder]]
      (hotSweep 300000000000 3900000000000 []) := by
  intro h
  have hpending := (h ⟨[], .hot, 300000000000, 3900000000000, 300⟩ rfl
    ⟨"item1", sampleOrder.toSeen "1970-01-01T00:00:00Z", 1, "1970-01-01T00:05:00Z", some 300, "full",
      "pending"⟩ (by decide +kernel) rfl).1 rfl
  obtain ⟨last, hlast, hin⟩ := hpending
  obtain rfl := Option.some.inj hlast
  revert hin
  simp only [InTime, allowed]
  norm_num

/-- A book that misses the same order without the wait. -/
theorem gapRule_iff_prompt_book :
    GapRule sampleClock 3 "item1" listedItem [hotSweep 0 1000000000 [sampleOrder]]
      (hotSweep 300000000000 301000000000 []) := by
  refine (gapRule_iff sampleClock 3 "item1" listedItem [hotSweep 0 1000000000 [sampleOrder]]
    (hotSweep 300000000000 301000000000 []) listedItem_fresh ?_).mpr ?_
  · rintro last hlast
    obtain rfl := Option.some.inj hlast
    rfl
  · rintro r hr last hlast _ _
    obtain rfl := Option.some.inj hr
    obtain rfl := Option.some.inj hlast
    simp only [Recorded.wait, allowed]
    norm_num

end Quantframe.Collector
