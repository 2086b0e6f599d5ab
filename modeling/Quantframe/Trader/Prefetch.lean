import Mathlib.Data.List.Perm.Basic
import Quantframe.Lib.Machine
import Quantframe.Trader.Items

/-!
# The prefetching cycle

While an entry is processed, the book of the next one is fetched on the same task. The loop is a machine: at
its head it turns to an entry and starts fetches, and a poll of the task makes progress with the prefetch and
then with the entry. Which requests have answered at a poll, and whether the entry's own work is through, is
carried by the label.
-/

namespace Quantframe.Trader

open Lib Market
open Trades (Error)

/-! ### Fetches -/

/-- A book fetch. `fut` is the request, with what it is going to give, until it has given it; `out` is what it
gave, until it is taken. -/
structure Prefetch where
  index : Nat
  fut : Option (Except Error LiveOrders)
  out : Option (Except Error LiveOrders)

inductive FetchEvent where
  | started (index : Nat)
  | finished (index : Nat)
  | cancelled (index : Nat)
  deriving DecidableEq, Repr

namespace Prefetch

def start (index : Nat) (fut : Except Error LiveOrders) : Prefetch := ⟨index, some fut, none⟩

def pollProgress (ready : Nat → Bool) (p : Prefetch) : Prefetch :=
  match p.fut with
  | some out => if ready p.index then ⟨p.index, none, some out⟩ else p
  | none => p

def pollEvents (ready : Nat → Bool) (p : Prefetch) : List FetchEvent :=
  if p.fut.isSome && ready p.index then [.finished p.index] else []

/-- Dropping a fetch cancels its request. -/
def dropEvents (p : Prefetch) : List FetchEvent := if p.fut.isSome then [.cancelled p.index] else []

/-- The index of a request that is under way. -/
def pending (p : Prefetch) : List Nat := if p.fut.isSome then [p.index] else []

end Prefetch

def FetchEvent.apply (outstanding : List Nat) : FetchEvent → List Nat
  | .started index => outstanding ++ [index]
  | .finished index | .cancelled index => outstanding.erase index

/-- The requests under way after some events. -/
def outstanding (log : List FetchEvent) : List Nat := log.foldl FetchEvent.apply []

def FetchEvent.index? : FetchEvent → Option Nat
  | .started index => some index
  | .finished _ | .cancelled _ => none

def startedFetches (log : List FetchEvent) : List Nat := log.filterMap FetchEvent.index?

/-! ### The loop -/

/-- What the loop is given: the item cache, what the fetch for each position gives, what it does when it
reaches an entry, and how it processes the entry once it has the book. -/
structure Workflows (W R : Type) where
  tradable : String → Option CacheTradableItem
  fetch : Nat → String → String → Except Error LiveOrders
  reach : ItemEntry → CacheTradableItem → W → R × W
  progress : R → ItemEntry → CacheTradableItem → LiveOrders → W → Except Error Unit × W

/-- How far the processing of an entry is: it waits for its book, or it has it. -/
inductive Work where
  | finish (current : Prefetch)
  | progress (book : LiveOrders)

/-- The entry in process. -/
structure Turn (R : Type) where
  entry : ItemEntry
  itemInfo : CacheTradableItem
  reached : R
  work : Work

/-- `rest` are the entries after the one in process, or from `index` on when there is none. `handled` are the
positions whose processing is through, with their books. -/
structure ItemLoop (W R : Type) where
  index : Nat
  rest : List ItemEntry
  prefetch : Option Prefetch
  turn : Option (Turn R)
  ended : Option (Except Error Bool)
  world : W
  handled : List (Nat × LiveOrders)
  log : List FetchEvent

inductive LoopLabel where
  /-- The head of the loop, which sees a stop or not. -/
  | head (stop : Bool)
  /-- A poll: which requests have answered, and whether the entry's own work is through. -/
  | poll (ready : Nat → Bool) (done : Bool)

def LoopLabel.stops : LoopLabel → List Bool
  | .head stop => [stop]
  | .poll _ _ => []

namespace ItemLoop

variable {W R : Type}

def init (entries : List ItemEntry) (world : W) : ItemLoop W R := ⟨0, entries, none, none, none, world, [], []⟩

/-- Leaving the loop drops the prefetch. -/
def leave (s : ItemLoop W R) (result : Except Error Bool) : ItemLoop W R :=
  { s with
    turn := none
    ended := some result
    prefetch := none
    log := s.log ++ (s.prefetch.map Prefetch.dropEvents).getD [] }

/-- `with_prefetch` polls the prefetch first. -/
def pollPrefetch (ready : Nat → Bool) (s : ItemLoop W R) : ItemLoop W R :=
  { s with
    prefetch := s.prefetch.map (Prefetch.pollProgress ready)
    log := s.log ++ (s.prefetch.map (Prefetch.pollEvents ready)).getD [] }

/-- `finish` polls the entry's own fetch. -/
def pollCurrent (ready : Nat → Bool) (s : ItemLoop W R) : ItemLoop W R :=
  match s.turn with
  | some ⟨entry, itemInfo, reached, .finish current⟩ =>
      { s with
        turn := some ⟨entry, itemInfo, reached, .finish (current.pollProgress ready)⟩
        log := s.log ++ current.pollEvents ready }
  | _ => s

/-- What `finish` took; an error leaves the loop. -/
def takeOut (s : ItemLoop W R) : ItemLoop W R :=
  match s.turn with
  | some ⟨entry, itemInfo, reached, .finish current⟩ =>
      match current.out with
      | none => s
      | some (.error e) => s.leave (.error e)
      | some (.ok book) => { s with turn := some ⟨entry, itemInfo, reached, .progress book⟩ }
  | _ => s

end ItemLoop

namespace Workflows

variable {W R : Type} (c : Workflows W R)

/-- The fetch for the first entry from `k` on that the cache can resolve. -/
def startNext : Nat → List ItemEntry → Option Prefetch
  | _, [] => none
  | k, entry :: rest =>
      match c.tradable entry.wfmUrl with
      | some next => some (.start k (c.fetch k entry.wfmUrl next.wfmUrl))
      | none => startNext (k + 1) rest

/-- The fetch of an entry that is reached: the prefetch, if it is the entry's own. -/
def current (k : Nat) (entry : ItemEntry) (itemInfo : CacheTradableItem) (prefetch : Option Prefetch) :
    Prefetch × List FetchEvent :=
  let fresh := Prefetch.start k (c.fetch k entry.wfmUrl itemInfo.wfmUrl)
  match prefetch with
  | some p => if p.index = k then (p, []) else (fresh, .started k :: p.dropEvents)
  | none => (fresh, [.started k])

def head (stop : Bool) (s : ItemLoop W R) : ItemLoop W R :=
  match s.rest with
  | [] => { s with ended := some (.ok false) }
  | entry :: rest =>
      if stop then s.leave (.ok true)
      else
        match c.tradable entry.wfmUrl with
        | none => { s with index := s.index + 1, rest := rest }
        | some itemInfo =>
            let reached := c.reach entry itemInfo s.world
            let current := c.current s.index entry itemInfo s.prefetch
            let next := c.startNext (s.index + 1) rest
            { s with
              rest := rest
              prefetch := next
              turn := some ⟨entry, itemInfo, reached.1, .finish current.1⟩
              world := reached.2
              log := s.log ++ current.2 ++ next.toList.map fun p => .started p.index }

/-- The rest of the entry's work, once it is through. -/
def progressEntry (done : Bool) (s : ItemLoop W R) : ItemLoop W R :=
  match s.turn with
  | some ⟨entry, itemInfo, reached, .progress book⟩ =>
      if done then
        let progressed := c.progress reached entry itemInfo book s.world
        let s := { s with world := progressed.2, handled := s.handled ++ [(s.index, book)] }
        match progressed.1 with
        | .error e => s.leave (.error e)
        | .ok () => { s with turn := none, index := s.index + 1 }
      else s
  | _ => s

def poll (ready : Nat → Bool) (done : Bool) (s : ItemLoop W R) : ItemLoop W R :=
  c.progressEntry done ((s.pollPrefetch ready).pollCurrent ready).takeOut

/-- `process_items_with`, up to what follows its loop. -/
def step : Machine (ItemLoop W R) LoopLabel
  | s, .head stop => if s.ended.isNone && s.turn.isNone then some (c.head stop s) else none
  | s, .poll ready done => if s.turn.isSome then some (c.poll ready done s) else none

end Workflows

/-! ### The loop that fetches each book just before it processes the entry -/

/-- How a loop ends: with an error, or whether it was interrupted. -/
structure LoopEnd (W : Type) where
  result : Except Error Bool
  world : W
  handled : List (Nat × LiveOrders)

namespace Workflows

variable {W R : Type} (c : Workflows W R)

/-- An entry whose fetch has given something, and what follows it. -/
def process (k : Nat) (entry : ItemEntry) (itemInfo : CacheTradableItem) (reached : R)
    (fetched : Except Error LiveOrders) (world : W) (handled : List (Nat × LiveOrders))
    (next : W → List (Nat × LiveOrders) → LoopEnd W) : LoopEnd W :=
  match fetched with
  | .error e => ⟨.error e, world, handled⟩
  | .ok book =>
      let progressed := c.progress reached entry itemInfo book world
      match progressed.1 with
      | .error e => ⟨.error e, progressed.2, handled ++ [(k, book)]⟩
      | .ok () => next progressed.2 (handled ++ [(k, book)])

/-- `stops` are the stops that the heads of the loop see. -/
def sequential : List Bool → Nat → List ItemEntry → W → List (Nat × LiveOrders) → LoopEnd W
  | _, _, [], world, handled => ⟨.ok false, world, handled⟩
  | stops, k, entry :: rest, world, handled =>
      if stops.headD false then ⟨.ok true, world, handled⟩
      else
        match c.tradable entry.wfmUrl with
        | none => sequential stops.tail (k + 1) rest world handled
        | some itemInfo =>
            let reached := c.reach entry itemInfo world
            c.process k entry itemInfo reached.1 (c.fetch k entry.wfmUrl itemInfo.wfmUrl) reached.2 handled
              fun world handled => sequential stops.tail (k + 1) rest world handled

/-- What the loop that fetches just before processing would make of a state, when its heads see `stops`. -/
def remaining (s : ItemLoop W R) (stops : List Bool) : LoopEnd W :=
  match s.ended, s.turn with
  | some result, _ => ⟨result, s.world, s.handled⟩
  | none, none => c.sequential stops s.index s.rest s.world s.handled
  | none, some ⟨entry, itemInfo, reached, .finish _⟩ =>
      c.process s.index entry itemInfo reached (c.fetch s.index entry.wfmUrl itemInfo.wfmUrl) s.world s.handled
        (c.sequential stops (s.index + 1) s.rest)
  | none, some ⟨entry, itemInfo, reached, .progress book⟩ =>
      c.process s.index entry itemInfo reached (.ok book) s.world s.handled (c.sequential stops (s.index + 1) s.rest)

end Workflows

end Quantframe.Trader
