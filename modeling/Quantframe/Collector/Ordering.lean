import Quantframe.Collector.Runner
import Quantframe.Collector.TrueBook
import Quantframe.Lib.Machine

/-!
# The order in which books are recorded

Sweeps and ingests of one item. A sweep holds the claim from its start to its record, so its book is
newer than every recorded one; the trader fetches ahead and its book is as old as its turn.
-/

namespace Quantframe.Collector

open Lib
open Market (Lane)

/-- A sweep under way: it holds the claim of its item. -/
structure InFlight where
  target : SweepTarget
  lane : Lane
  expectedIntervalS : Int
  started : Int
  attempts : List Attempt

/-- A book the trader fetched for an entry whose turn has not come. -/
structure Prefetched where
  orders : List V2Order
  fetchedAt : Int

/-- `recorded` are the times the books passed to `apply_sweep` were fetched, in its order. -/
structure ItemRecord where
  db : Tables
  now : Int
  inFlight : Option InFlight
  prefetched : List Prefetched
  recorded : List Int

inductive Turn where
  | wait (until_ : Int)
  /-- A hot or a cold sweep takes the claim. -/
  | claim (target : SweepTarget) (lane : Lane) (expectedIntervalS : Int)
  | answer (result : Except FetchError (List V2Order))
  | record (committed : Bool)
  /-- The task of the sweep ends before its record. -/
  | abandon
  | prefetch (orders : List V2Order)
  | ingest (i : Nat) (slug : String) (expectedIntervalS : Int) (committed : Bool)
  /-- The trader stops before the entry's turn. -/
  | discard (i : Nat)

/-- The book `record_sweep` writes, if any. -/
def writtenBook (result : Except FetchError (List V2Order)) (committed : Bool) : Option (List V2Order) :=
  match result with
  | .ok orders => if committed then some orders else none
  | .error _ => none

instance (market : TrueBook) (orders : List V2Order) (t : Int) : Decidable (market.Shows orders t) :=
  decidable_of_iff ((orders.map V2Order.id).Nodup ∧ ∀ o ∈ orders, o.quantity = market.quantityAt o.id t)
    ⟨fun h => ⟨h.1, h.2⟩, fun h => ⟨h.1, h.2⟩⟩

/-- An answer with a book has the market's book at that time. -/
def TrueBook.answers (market : TrueBook) (t : Int) : Except FetchError (List V2Order) → Bool
  | .ok orders => decide (market.Shows orders t)
  | .error _ => true

namespace ItemRecord

section Machine

variable (clock : Clock) (exceeds : Int → Int → Bool) (market : TrueBook) (itemId : String)

def step (s : ItemRecord) : Turn → Option ItemRecord
  | .wait t => if s.now ≤ t then some { s with now := t } else none
  | .claim target lane expectedIntervalS =>
      if s.inFlight.isNone then
        some { s with
          db := s.db.markAttempt itemId (clock.ts s.now)
          inFlight := some ⟨{ target with itemId }, lane, expectedIntervalS, s.now, []⟩ }
      else none
  | .answer result =>
      s.inFlight.bind fun f =>
        if (fetchWithRetries 0 f.attempts).isNone ∧ market.answers s.now result then
          some { s with inFlight := some { f with attempts := f.attempts ++ [⟨s.now, result⟩] } }
        else none
  | .record committed =>
      s.inFlight.bind fun f => (fetchWithRetries 0 f.attempts).map fun a =>
        { s with
          db := recordSweep clock exceeds s.db f.target f.lane a.result f.started f.expectedIntervalS
            committed
          inFlight := none
          recorded := s.recorded ++ ((writtenBook a.result committed).map fun _ => a.fetchedAt).toList }
  | .abandon => if s.inFlight.isSome then some { s with inFlight := none } else none
  | .prefetch orders =>
      if market.answers s.now (.ok orders) then
        some { s with prefetched := s.prefetched ++ [⟨orders, s.now⟩] }
      else none
  | .ingest i slug expectedIntervalS committed =>
      s.prefetched[i]?.map fun b =>
        let rest := s.prefetched.eraseIdx i
        if s.inFlight.isSome then { s with prefetched := rest }
        else
          { s with
            db := ingestBook clock exceeds s.db itemId slug b.orders expectedIntervalS s.now committed
            prefetched := rest
            recorded := s.recorded ++ (if committed then [b.fetchedAt] else []) }
  | .discard i => some { s with prefetched := s.prefetched.eraseIdx i }

/-- Nothing of the item is recorded yet. -/
structure Opening (s : ItemRecord) : Prop where
  unseen : ∀ row ∈ s.db.lastSeenOrders.rows, row.itemId ≠ itemId
  unvanished : ∀ row ∈ s.db.vanishedOrders, row.itemId ≠ itemId
  idle : s.inFlight = none ∧ s.prefetched = [] ∧ s.recorded = []

end Machine

/-- A book handed over while the claim is free was fetched no earlier than the recorded ones. -/
def InTurn (s : ItemRecord) : Turn → Prop
  | .ingest i _ _ committed => s.inFlight = none → committed = true →
      ∀ b, s.prefetched[i]? = some b → ∀ t ∈ s.recorded, t ≤ b.fetchedAt
  | _ => True

variable {clock : Clock} {exceeds : Int → Int → Bool} {market : TrueBook} {itemId : String}

/-- A sweep began after every recorded fetch, and its answers are newer still. -/
structure FlightSound (market : TrueBook) (itemId : String) (recorded : List Int) (now : Int)
    (f : InFlight) : Prop where
  item : f.target.itemId = itemId
  newest : ∀ t ∈ recorded, t ≤ f.started
  started : f.started ≤ now
  attempts : ∀ a ∈ f.attempts, f.started ≤ a.fetchedAt ∧ a.fetchedAt ≤ now ∧
    ∀ orders, a.result = .ok orders → market.Shows orders a.fetchedAt

structure InOrder (market : TrueBook) (itemId : String) (s : ItemRecord) : Prop where
  follows : Follows market itemId s.db s.recorded.getLast?
  sorted : s.recorded.Pairwise (· ≤ ·)
  past : ∀ t ∈ s.recorded, t ≤ s.now
  prefetched : ∀ b ∈ s.prefetched, market.Shows b.orders b.fetchedAt ∧ b.fetchedAt ≤ s.now
  flight : ∀ f, s.inFlight = some f → FlightSound market itemId s.recorded s.now f

theorem InOrder.opening {s : ItemRecord} (h : s.Opening itemId) : s.InOrder market itemId := by
  obtain ⟨hflight, hprefetched, hrecorded⟩ := h.idle
  refine ⟨⟨?_, ?_⟩, ?_, ?_, ?_, ?_⟩
  · intro id row hrow
    exact absurd hrow.2 (h.unseen row (Table.mem_of_lookup hrow.1))
  · intro id
    rw [hrecorded, partialSum, List.filter_eq_nil_iff.mpr]
    · exact le_refl _
    · intro row hrow
      simp [h.unvanished row hrow]
  · rw [hrecorded]
    exact .nil
  · simp [hrecorded]
  · simp [hprefetched]
  · simp [hflight]

theorem fetchWithRetries_mem {retries : Nat} {attempts : List Attempt} {a : Attempt}
    (h : fetchWithRetries retries attempts = some a) : a ∈ attempts := by
  induction attempts generalizing retries with
  | nil => cases h
  | cons first later ih =>
      rw [fetchWithRetries] at h
      split at h
      · cases h
        exact List.mem_cons_self
      · cases h
        exact List.mem_cons_self
      · cases h
        exact List.mem_cons_self
      · cases h
        exact List.mem_cons_self
      · split at h
        · cases h
          exact List.mem_cons_self
        · exact List.mem_cons_of_mem _ (ih h)

theorem recordSweep_written (db : Tables) (target : SweepTarget) (lane : Lane)
    (result : Except FetchError (List V2Order)) (started expected : Int) (committed : Bool) :
    (∃ orders, result = .ok orders ∧ writtenBook result committed = some orders ∧
      recordSweep clock exceeds db target lane result started expected committed =
        (Collector.applySweep clock db
          ⟨target.itemId, laneName lane, orders, started, expected, exceeds⟩).1) ∨
    writtenBook result committed = none ∧
      (recordSweep clock exceeds db target lane result started expected committed).lastSeenOrders =
        db.lastSeenOrders ∧
      (recordSweep clock exceeds db target lane result started expected committed).vanishedOrders =
        db.vanishedOrders := by
  cases result with
  | error e => cases e <;> exact .inr ⟨rfl, rfl, rfl⟩
  | ok orders =>
      cases committed with
      | false => exact .inr ⟨rfl, rfl, rfl⟩
      | true => exact .inl ⟨orders, rfl, rfl, rfl⟩

/-- A book in turn is recorded: what follows the recorded books now follows it. -/
theorem InOrder.recorded {s : ItemRecord} (h : s.InOrder market itemId) {input : SweepInput} {t : Int}
    (hitem : input.itemId = itemId) (hshows : market.Shows input.orders t)
    (hturn : ∀ t' ∈ s.recorded, t' ≤ t) :
    Follows market itemId (Collector.applySweep clock s.db input).1 (s.recorded ++ [t]).getLast? ∧
      (s.recorded ++ [t]).Pairwise (· ≤ ·) := by
  subst hitem
  rw [List.getLast?_concat]
  refine ⟨h.follows.applySweep hshows fun t' ht' => hturn t' (List.mem_of_getLast? ht'), ?_⟩
  refine List.pairwise_append.mpr ⟨h.sorted, List.pairwise_singleton _ _, ?_⟩
  intro t' ht' x hx
  rw [List.mem_singleton.mp hx]
  exact hturn t' ht'

theorem InOrder.step {s t : ItemRecord} {l : Turn} (h : s.InOrder market itemId) (hturn : s.InTurn l)
    (hstep : step clock exceeds market itemId s l = some t) : t.InOrder market itemId := by
  cases l with
  | wait until_ =>
      obtain ⟨hle, ht⟩ := Option.ite_none_right_eq_some.mp hstep
      cases ht
      refine ⟨h.follows, h.sorted, fun t' ht' => (h.past t' ht').trans hle, ?_, ?_⟩
      · exact fun b hb => ⟨(h.prefetched b hb).1, (h.prefetched b hb).2.trans hle⟩
      · intro f hf
        have hsound := h.flight f hf
        refine ⟨hsound.item, hsound.newest, hsound.started.trans hle, fun a ha => ?_⟩
        obtain ⟨hafter, hbefore, hshows⟩ := hsound.attempts a ha
        exact ⟨hafter, hbefore.trans hle, hshows⟩
  | claim target lane expected =>
      obtain ⟨_, ht⟩ := Option.ite_none_right_eq_some.mp hstep
      cases ht
      refine ⟨h.follows.of_eq rfl rfl, h.sorted, h.past, h.prefetched, ?_⟩
      intro f hf
      cases hf
      exact ⟨rfl, h.past, le_refl _, fun a ha => absurd ha List.not_mem_nil⟩
  | answer result =>
      obtain ⟨f, hf, hanswer⟩ := Option.bind_eq_some_iff.mp hstep
      obtain ⟨⟨_, htrue⟩, ht⟩ := Option.ite_none_right_eq_some.mp hanswer
      cases ht
      refine ⟨h.follows, h.sorted, h.past, h.prefetched, ?_⟩
      intro f' hf'
      cases hf'
      have hsound := h.flight f hf
      refine ⟨hsound.item, hsound.newest, hsound.started, fun a ha => ?_⟩
      rcases List.mem_append.mp ha with ha | ha
      · exact hsound.attempts a ha
      · rw [List.mem_singleton.mp ha]
        refine ⟨hsound.started, le_refl _, ?_⟩
        rintro orders rfl
        exact of_decide_eq_true htrue
  | record committed =>
      obtain ⟨f, hf, hrecord⟩ := Option.bind_eq_some_iff.mp hstep
      obtain ⟨a, ha, ht⟩ := Option.map_eq_some_iff.mp hrecord
      subst ht
      have hsound := h.flight f hf
      obtain ⟨hafter, hbefore, hshows⟩ := hsound.attempts a (fetchWithRetries_mem ha)
      rcases @recordSweep_written clock exceeds s.db f.target f.lane a.result f.started
        f.expectedIntervalS committed with ⟨orders, hok, hwritten, hdb⟩ | ⟨hwritten, hseen, hvanished⟩
      · obtain ⟨hfollows, hsorted⟩ := @InOrder.recorded clock market itemId s h
          ⟨f.target.itemId, laneName f.lane, orders, f.started, f.expectedIntervalS, exceeds⟩
          a.fetchedAt hsound.item (hshows orders hok)
          fun t' ht' => (hsound.newest t' ht').trans hafter
        rw [hwritten, hdb]
        refine ⟨hfollows, hsorted, ?_, h.prefetched, fun f' hf' => by cases hf'⟩
        intro t' ht'
        rcases List.mem_append.mp ht' with ht' | ht'
        · exact h.past t' ht'
        · rw [List.mem_singleton.mp ht']
          exact hbefore
      · rw [hwritten, Option.map_none, Option.toList_none, List.append_nil]
        exact ⟨h.follows.of_eq hseen hvanished, h.sorted, h.past, h.prefetched, fun f' hf' => by cases hf'⟩
  | abandon =>
      obtain ⟨_, ht⟩ := Option.ite_none_right_eq_some.mp hstep
      cases ht
      exact ⟨h.follows, h.sorted, h.past, h.prefetched, fun f' hf' => by cases hf'⟩
  | prefetch orders =>
      obtain ⟨htrue, ht⟩ := Option.ite_none_right_eq_some.mp hstep
      cases ht
      refine ⟨h.follows, h.sorted, h.past, fun b hb => ?_, h.flight⟩
      rcases List.mem_append.mp hb with hb | hb
      · exact h.prefetched b hb
      · rw [List.mem_singleton.mp hb]
        exact ⟨of_decide_eq_true htrue, le_refl _⟩
  | ingest i slug expected committed =>
      obtain ⟨b, hb, ht⟩ := Option.map_eq_some_iff.mp hstep
      have hrest : ∀ b' ∈ s.prefetched.eraseIdx i, market.Shows b'.orders b'.fetchedAt ∧ b'.fetchedAt ≤ s.now :=
        fun b' hb' => h.prefetched b' (List.mem_of_mem_eraseIdx hb')
      obtain ⟨hshows, hbefore⟩ := h.prefetched b (List.mem_of_getElem? hb)
      cases hclaim : s.inFlight with
      | some f =>
          simp only [hclaim, Option.isSome_some, if_true] at ht
          subst ht
          exact ⟨h.follows, h.sorted, h.past, hrest, hclaim ▸ h.flight⟩
      | none =>
          simp only [hclaim, Option.isSome_none, Bool.false_eq_true, if_false] at ht
          subst ht
          cases committed with
          | false =>
              simp only [Bool.false_eq_true, if_false, List.append_nil]
              exact ⟨h.follows.of_eq rfl rfl, h.sorted, h.past, hrest, fun f' hf' => by cases hf'⟩
          | true =>
              obtain ⟨hfollows, hsorted⟩ := @InOrder.recorded clock market itemId s h
                ⟨itemId, laneName .trader, b.orders, s.now, expected, exceeds⟩ b.fetchedAt rfl hshows
                (hturn hclaim rfl b hb)
              refine ⟨hfollows, hsorted, ?_, hrest, fun f' hf' => by cases hf'⟩
              intro t' ht'
              rcases List.mem_append.mp ht' with ht' | ht'
              · exact h.past t' ht'
              · rw [List.mem_singleton.mp ht']
                exact hbefore
  | discard i =>
      cases hstep
      refine ⟨h.follows, h.sorted, h.past, fun b hb => ?_, h.flight⟩
      exact h.prefetched b (List.mem_of_mem_eraseIdx hb)

/-- In every run that hands a book over only in its turn, the books are recorded in the order they were
fetched, and no order has more partial vanishes than its quantity went down. -/
theorem books_in_order (clock : Clock) (exceeds : Int → Int → Bool) (market : TrueBook) (itemId : String)
    {s t : ItemRecord} {ls : List Turn} (hopening : s.Opening itemId)
    (run : Trace (ItemRecord.step clock exceeds market itemId) s ls t)
    (kept : Along (ItemRecord.step clock exceeds market itemId) InTurn s ls) :
    t.recorded.Pairwise (· ≤ ·) ∧
      ∀ id, partialSum itemId id t.db.vanishedOrders ≤ market.decreased id t.now := by
  have h : t.InOrder market itemId :=
    run.invariant_along (fun _ _ _ hs hturn hstep => hs.step hturn hstep) kept (.opening hopening)
  refine ⟨h.sorted, fun id => (h.follows.sums id).trans ?_⟩
  cases hlast : t.recorded.getLast? with
  | none => exact market.decreased_nonneg id t.now
  | some last => exact market.decreased_mono id (h.past last (List.mem_of_getLast? hlast))

/-! ### A prefetched book that is recorded late -/

/-- Two of five pieces are sold after five minutes. -/
def soldTwo : TrueBook where
  opening _ := 5
  edits := [⟨300000000000, "s1", 3⟩]
  inOrder := List.pairwise_singleton _ _

def listing (quantity : Int) : List V2Order :=
  [⟨"s1", "sell", 20, quantity, some 0, none, none, none, none, true, "item1", ⟨"u1", "u1", "ingame"⟩⟩]

def fiveMinuteClock : Clock := .ofSeconds
  [(0, "1970-01-01T00:00:00Z"), (301, "1970-01-01T00:05:01Z"), (302, "1970-01-01T00:05:02Z"),
    (602, "1970-01-01T00:10:02Z")]

/-- Three times the expected interval. -/
def threefold (gap expected : Int) : Bool := decide (3 * expected < gap)

def noRecord : ItemRecord := ⟨⟨.empty, [], [], .empty⟩, 0, none, [], []⟩

def hotClaim : Turn := .claim ⟨"item1", "slug1", none⟩ .hot 300

/-- The trader fetches the book a second before the sale and hands it over after the sweep that saw
the sale; the next sweep sees the sale again. -/
def staleRun : List Turn :=
  [hotClaim, .answer (.ok (listing 5)), .record true,
    .wait 299000000000, .prefetch (listing 5),
    .wait 301000000000, hotClaim, .answer (.ok (listing 3)), .record true,
    .wait 302000000000, .ingest 0 "slug1" 1200 true,
    .wait 602000000000, hotClaim, .answer (.ok (listing 3)), .record true]

theorem noRecord_opening : noRecord.Opening "item1" :=
  ⟨fun _ h => absurd h List.not_mem_nil, fun _ h => absurd h List.not_mem_nil, rfl, rfl, rfl⟩

def replayed (ls : List Turn) : ItemRecord :=
  replay (ItemRecord.step fiveMinuteClock threefold soldTwo "item1") noRecord ls

theorem stale_book_counts_twice :
    ¬ ∀ clock exceeds market itemId s ls t, s.Opening itemId →
      Trace (ItemRecord.step clock exceeds market itemId) s ls t →
        t.recorded.Pairwise (· ≤ ·) ∧
          ∀ id, partialSum itemId id t.db.vanishedOrders ≤ market.decreased id t.now := by
  intro h
  have run := @trace_replay _ _ (ItemRecord.step fiveMinuteClock threefold soldTwo "item1") noRecord
    staleRun (by decide +kernel)
  have hsum := (h _ _ _ _ _ _ _ noRecord_opening run).2 "s1"
  exact absurd hsum (by decide +kernel)

/-- The same without the sweep between the fetch and the hand-over. -/
def promptRun : List Turn :=
  [hotClaim, .answer (.ok (listing 5)), .record true,
    .wait 299000000000, .prefetch (listing 5),
    .wait 302000000000, .ingest 0 "slug1" 1200 true,
    .wait 602000000000, hotClaim, .answer (.ok (listing 3)), .record true]

/-- `InTurn`, checked. -/
def inTurn (s : ItemRecord) : Turn → Bool
  | .ingest i _ _ committed => s.inFlight.isSome || !committed ||
      s.prefetched[i]?.all fun b => s.recorded.all fun t => decide (t ≤ b.fetchedAt)
  | _ => true

theorem inTurn_sound (s : ItemRecord) (l : Turn) (h : s.inTurn l = true) : s.InTurn l := by
  cases l with
  | ingest i slug expected committed =>
      intro hclaim hcommitted b hb t ht
      rw [inTurn, hclaim, hcommitted, hb] at h
      have hall : ∀ t ∈ s.recorded, t ≤ b.fetchedAt := by simpa using h
      exact hall t ht
  | wait | claim | answer | record | abandon | prefetch | discard => trivial

theorem books_in_order_prompt_run :
    (replayed promptRun).recorded.Pairwise (· ≤ ·) ∧
      ∀ id, partialSum "item1" id (replayed promptRun).db.vanishedOrders ≤
        soldTwo.decreased id (replayed promptRun).now :=
  books_in_order fiveMinuteClock threefold soldTwo "item1" noRecord_opening
    (trace_replay (by decide +kernel)) (along_of_all inTurn_sound (by decide +kernel))

end ItemRecord

end Quantframe.Collector
