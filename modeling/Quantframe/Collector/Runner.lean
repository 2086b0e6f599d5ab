import Quantframe.Collector.Store
import Quantframe.Market.Limiter

/-!
# Sweeps and ingests

How a book gets from the market to `apply_sweep`: fetched by a sweep behind the limiter, with its
retries, or handed over by the trader. A sweep carries the time it began, an ingest the time of the
hand-over.
-/

namespace Quantframe.Collector

open Lib
open Market (Lane)

inductive FetchError where
  | notFound
  | rateLimited
  /-- A Cloudflare challenge. -/
  | blocked
  | transient (message : String)
  | invalid (message : String)
  deriving DecidableEq, Repr

/-- One attempt: when its answer was fetched, behind the limiter, and what it was. -/
structure Attempt where
  fetchedAt : Int
  result : Except FetchError (List V2Order)

def maxRetries : Nat := 2

/-- The last attempt of `fetch_with_retries`; none while one is still waited for. -/
def fetchWithRetries (retries : Nat) : List Attempt → Option Attempt
  | [] => none
  | a :: later =>
      match a.result with
      | .ok _ => some a
      | .error .notFound => some a
      | .error .blocked => some a
      | .error .rateLimited => some a
      | .error _ => if maxRetries ≤ retries then some a else fetchWithRetries (retries + 1) later

def laneName : Lane → String
  | .trader => "trader"
  | .hot => "hot"
  | .cold => "cold"

structure SweepTarget where
  itemId : String
  slug : String
  lastAttemptAt : Option String
  deriving DecidableEq, Repr

namespace Tables

def setState (db : Tables) (itemId : String) (f : SweepState → SweepState)
    (hf : ∀ s, (f s).itemId = s.itemId) : Tables :=
  { db with sweepState := db.sweepState.update itemId f hf }

def markAttempt (db : Tables) (itemId sweptAt : String) : Tables :=
  db.setState itemId (fun s => { s with lastAttemptAt := some sweptAt }) fun _ => rfl

/-- Puts back the attempt time that an attempt that never counted overwrote. -/
def restoreAttempt (db : Tables) (itemId : String) (previous : Option String) : Tables :=
  db.setState itemId (fun s => { s with lastAttemptAt := previous }) fun _ => rfl

def recordError (db : Tables) (itemId : String) : Tables :=
  db.setState itemId (fun s => { s with consecutiveErrors := s.consecutiveErrors + 1 }) fun _ => rfl

/-- After a 404. -/
def deactivate (db : Tables) (itemId : String) : Tables :=
  db.setState itemId (fun s => { s with active := false }) fun _ => rfl

end Tables

section Recording

variable (clock : Clock) (exceeds : Int → Int → Bool) (db : Tables)

/-- Writes one fetched order book, or its failure; `committed` says whether the transaction is. -/
def recordSweep (target : SweepTarget) (lane : Lane) (result : Except FetchError (List V2Order))
    (started expectedIntervalS : Int) (committed : Bool) : Tables :=
  match result with
  | .ok orders =>
      Sweep.apply clock db
        ⟨⟨target.itemId, laneName lane, orders, started, expectedIntervalS, exceeds⟩, committed⟩
  | .error .notFound => db.deactivate target.itemId
  | .error .blocked => db.restoreAttempt target.itemId target.lastAttemptAt
  | .error .rateLimited => db.restoreAttempt target.itemId target.lastAttemptAt
  | .error _ => db.recordError target.itemId

/-- The time is read before the limiter is asked for a slot. -/
def sweep (target : SweepTarget) (lane : Lane) (expectedIntervalS started : Int)
    (attempts : List Attempt) (committed : Bool) : Tables :=
  let marked := db.markAttempt target.itemId (clock.ts started)
  match fetchWithRetries 0 attempts with
  | none => marked
  | some a =>
      recordSweep clock exceeds marked target lane a.result started expectedIntervalS committed

/-- A book the trader fetched, recorded under the time it is handed over. -/
def ingestBook (itemId slug : String) (orders : List V2Order) (expectedIntervalS now : Int)
    (committed : Bool) : Tables :=
  recordSweep clock exceeds db ⟨itemId, slug, none⟩ .trader (.ok orders) now expectedIntervalS committed

end Recording

/-- What may happen to the record of one item. -/
inductive Visit where
  | sweep (target : SweepTarget) (lane : Lane) (expectedIntervalS started : Int)
      (attempts : List Attempt) (committed : Bool)
  | ingest (slug : String) (orders : List V2Order) (fetchedAt expectedIntervalS now : Int)
      (committed : Bool)

/-- A book that was recorded: the time it carries and the time it was fetched. -/
structure Recorded where
  orders : List V2Order
  lane : Lane
  sweptAt : Int
  fetchedAt : Int
  expectedIntervalS : Int

namespace Visit

def recorded : Visit → Option Recorded
  | .sweep _ lane expectedIntervalS started attempts committed =>
      (fetchWithRetries 0 attempts).bind fun a =>
        match a.result with
        | .ok orders =>
            if committed then some ⟨orders, lane, started, a.fetchedAt, expectedIntervalS⟩ else none
        | .error _ => none
  | .ingest _ orders fetchedAt expectedIntervalS now committed =>
      if committed then some ⟨orders, .trader, now, fetchedAt, expectedIntervalS⟩ else none

variable (clock : Clock) (exceeds : Int → Int → Bool) (itemId : String)

def apply (db : Tables) : Visit → Tables
  | .sweep target lane expectedIntervalS started attempts committed =>
      Collector.sweep clock exceeds db { target with itemId } lane expectedIntervalS started attempts
        committed
  | .ingest slug orders _ expectedIntervalS now committed =>
      ingestBook clock exceeds db itemId slug orders expectedIntervalS now committed

end Visit

/-- The tables after some visits of one item. -/
def afterVisits (clock : Clock) (exceeds : Int → Int → Bool) (itemId : String) (db : Tables)
    (history : List Visit) : Tables :=
  history.foldl (Visit.apply clock exceeds itemId) db

/-- The book of the item recorded last. -/
def lastRecorded (history : List Visit) : Option Recorded := (history.filterMap Visit.recorded).getLast?

end Quantframe.Collector
