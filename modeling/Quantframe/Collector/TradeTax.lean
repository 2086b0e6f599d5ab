import Quantframe.Collector.Passes
import Quantframe.Utils.Objects

/-!
# The trade tax of each item

Every active item without a stored tax is asked for, one at a time. An item nothing was stored for is set aside,
for an hour or for the rest of the process, so that it does not hold up the queue.
-/

namespace Quantframe.Collector.TradeTax

open Lib
open scoped List
open Refresh (Item pick)
open Trades (Error)
open Utils (Json getMember)

variable {Body : Type}

/-- Hours. -/
def transientRetry : Int := 1

/-- `serde_json` on a body, and `as_i64`. -/
structure Reader (Body : Type) where
  fromStr : Body → Except Error Json
  asI64 : Json → Option Int

/-- `data.tradingTax`; 0 when the field is absent or not an integer. -/
def parseTradingTax (reader : Reader Body) (body : Body) : Except Error Int := do
  let body ← reader.fromStr body
  match (body.asObject.bind fun members => getMember members "data".toList).bind Json.asObject with
  | none => .error ⟨"TradeTax", "no data object"⟩
  | some data =>
      match getMember data "tradingTax".toList with
      | none => .ok 0
      | some value => .ok ((reader.asI64 value).getD 0)

structure TaxRow where
  itemId : String
  tradingTax : Int
  fetchedAt : String
  deriving DecidableEq, Repr

/-- Until when an item is set aside. -/
structure Deferral where
  itemId : String
  until_ : Int
  deriving DecidableEq, Repr

structure State where
  sweepState : Table SweepState.itemId
  itemTradeTax : Table TaxRow.itemId
  /-- `DEFERRED`, which a restart clears. -/
  deferred : Table Deferral.itemId

def State.upsertTax (s : State) (itemId : String) (tradingTax : Int) (fetchedAt : String) : State :=
  { s with itemTradeTax := s.itemTradeTax.insertOrReplace ⟨itemId, tradingTax, fetchedAt⟩ }

def State.defer (s : State) (itemId : String) (until_ : Int) : State :=
  { s with deferred := s.deferred.insertOrReplace ⟨itemId, until_⟩ }

def State.loadAll (s : State) : List (String × Int) := s.itemTradeTax.rows.map fun r => (r.itemId, r.tradingTax)

/-- Active items with no tax row yet, by item id. -/
def missingItems (s : State) : List Item :=
  (byRank SweepState.itemId (s.sweepState.rows.filter fun row =>
    row.active && (s.itemTradeTax.lookup row.itemId).isNone)).map fun row => (row.itemId, row.slug)

/-- `DateTime::<Utc>::MAX_UTC`. -/
def forTheRun : Int := 8210266876799999999999

/-- The item is set aside. -/
def State.setAside (s : State) (now : Int) (itemId : String) : Bool :=
  (s.deferred.lookup itemId).any fun d => decide (now < d.until_)

def eligible (s : State) (now : Int) : List Item := (missingItems s).filter fun item => !s.setAside now item.1

/-- One call, with what the market answers to each attempt at a slug and whether a tax is stored. -/
structure Call (Body : Type) where
  hot : List String
  now : Int
  source : String → Nat → Except FetchError Body
  stored : Bool

def Call.prefers (c : Call Body) (item : Item) : Bool := c.hot.contains item.1

/-- What becomes of an item that was asked for. -/
inductive Fate where
  | tax (tradingTax : Int)
  | setAside (until_ : Int)
  /-- A block is no attempt. -/
  | nothing
  deriving DecidableEq, Repr

section Calls

variable (clock : Clock) (reader : Reader Body)

def Call.fate (c : Call Body) (slug : String) : Fate :=
  match Statistics.fetchWithRetries (c.source slug) with
  | .ok body =>
      match parseTradingTax reader body with
      | .ok tax => .tax tax
      | .error _ => .setAside forTheRun
  | .error .notFound => .setAside forTheRun
  | .error .blocked => .nothing
  | .error .rateLimited => .nothing
  | .error _ => .setAside (c.now + hours transientRetry)

/-- Fetches one item's tax; returns the missing count before the fetch. A failing `SELECT` of the missing items, which
returns its error before anything is fetched, is left out. -/
def fetchOnceWith (s : State) (c : Call Body) : Except Error (Option Nat) × State :=
  let missing := eligible s c.now
  match pick missing c.hot with
  | none => (.ok none, s)
  | some (itemId, slug) =>
      match c.fate reader slug with
      | .tax tax =>
          if c.stored then (.ok (some missing.length), s.upsertTax itemId tax (clock.ts c.now))
          else (.error ⟨"TradeTax", ""⟩, s)
      | .setAside until_ => (.ok (some missing.length), s.defer itemId until_)
      | .nothing => (.ok (some missing.length), s)

def fetched (s : State) (c : Call Body) : Option Item := pick (eligible s c.now) c.hot

/-- The calls that fetch an item, each with the item. -/
def fetches (s : State) (calls : List (Call Body)) : List (Call Body × Item) :=
  picks (fetchOnceWith clock reader) (fun s c => eligible s c.now) Call.prefers s calls

def afterCalls (s : State) (calls : List (Call Body)) : State :=
  calls.foldl (fun s c => (fetchOnceWith clock reader s c).2) s

end Calls

/-! ### What a call may do -/

variable {clock : Clock} {reader : Reader Body} {s : State}

inductive Course (clock : Clock) (reader : Reader Body) (s : State) (c : Call Body) :
    Except Error (Option Nat) × State → Prop
  | idle : fetched s c = none → Course clock reader s c (.ok none, s)
  | stored {item : Item} {tax : Int} : fetched s c = some item → c.fate reader item.2 = .tax tax → c.stored = true →
      Course clock reader s c (.ok (some (eligible s c.now).length), s.upsertTax item.1 tax (clock.ts c.now))
  | lost {item : Item} {tax : Int} : fetched s c = some item → c.fate reader item.2 = .tax tax → c.stored = false →
      Course clock reader s c (.error ⟨"TradeTax", ""⟩, s)
  | setAside {item : Item} {until_ : Int} : fetched s c = some item → c.fate reader item.2 = .setAside until_ →
      Course clock reader s c (.ok (some (eligible s c.now).length), s.defer item.1 until_)
  | blocked {item : Item} : fetched s c = some item → c.fate reader item.2 = .nothing →
      Course clock reader s c (.ok (some (eligible s c.now).length), s)

theorem fetchOnceWith_course (s : State) (c : Call Body) :
    Course clock reader s c (fetchOnceWith clock reader s c) := by
  simp only [fetchOnceWith]
  split
  · next hnone => exact .idle hnone
  · next itemId slug hpick =>
      split
      · next tax hfate =>
          split
          · next hstored => exact .stored hpick hfate hstored
          · next hstored => exact .lost hpick hfate (by simpa using hstored)
      · next until_ hfate => exact .setAside hpick hfate
      · next hfate => exact .blocked hpick hfate

theorem fetchOnceWith_stored {c : Call Body} {item : Item} {tax : Int} (hitem : fetched s c = some item)
    (hfate : c.fate reader item.2 = .tax tax) (hstored : c.stored = true) :
    (fetchOnceWith clock reader s c).2 = s.upsertTax item.1 tax (clock.ts c.now) := by
  have hpick : pick (eligible s c.now) c.hot = some item := hitem
  simp only [fetchOnceWith, hpick, hfate, hstored, if_true]

theorem fetchOnceWith_setAside {c : Call Body} {item : Item} {until_ : Int} (hitem : fetched s c = some item)
    (hfate : c.fate reader item.2 = .setAside until_) :
    (fetchOnceWith clock reader s c).2 = s.defer item.1 until_ := by
  have hpick : pick (eligible s c.now) c.hot = some item := hitem
  simp only [fetchOnceWith, hpick, hfate]

/-- A fetched item is active, without a tax, and not set aside. -/
theorem mem_eligible {now : Int} {item : Item} (h : item ∈ eligible s now) :
    s.itemTradeTax.lookup item.1 = none ∧ s.setAside now item.1 = false ∧
      ∃ row ∈ s.sweepState.rows, row.active = true ∧ item = (row.itemId, row.slug) := by
  obtain ⟨hmissing, haside⟩ := List.mem_filter.mp h
  obtain ⟨row, hrow, rfl⟩ := List.mem_map.mp hmissing
  obtain ⟨hmem, hactive⟩ := List.mem_filter.mp ((mem_byRank _).mp hrow)
  rw [Bool.and_eq_true] at hactive
  refine ⟨Option.isNone_iff_eq_none.mp hactive.2, by simpa using haside, row, hmem, hactive.1, rfl⟩

/-! ### A pass -/

theorem nodup_missingItems (s : State) : ((missingItems s).map Prod.fst).Nodup := by
  have hids : (missingItems s).map Prod.fst = (byRank SweepState.itemId (s.sweepState.rows.filter fun row =>
      row.active && (s.itemTradeTax.lookup row.itemId).isNone)).map SweepState.itemId := by
    rw [missingItems, List.map_map]
    rfl
  rw [hids, ((byRank_perm _ _).map _).nodup_iff]
  exact (List.filter_sublist.map _).nodup s.sweepState.primaryKey

theorem nodup_eligible (s : State) (now : Int) : ((eligible s now).map Prod.fst).Nodup :=
  (List.filter_sublist.map _).nodup (nodup_missingItems s)

theorem missingItems_upsertTax (s : State) (itemId : String) (tax : Int) (fetchedAt : String) :
    missingItems (s.upsertTax itemId tax fetchedAt) =
      (missingItems s).filter fun item => !decide (item.1 = itemId) := by
  have hseparates : Ranking.Separates SweepState.itemId (s.sweepState.rows.filter fun row =>
      row.active && (s.itemTradeTax.lookup row.itemId).isNone) := fun a ha b hb hsame =>
    List.inj_on_of_nodup_map s.sweepState.primaryKey (List.mem_filter.mp ha).1 (List.mem_filter.mp hb).1 hsame
  have hrows : ((s.upsertTax itemId tax fetchedAt).sweepState.rows.filter fun row =>
      row.active && ((s.upsertTax itemId tax fetchedAt).itemTradeTax.lookup row.itemId).isNone) =
      (s.sweepState.rows.filter fun row =>
        row.active && (s.itemTradeTax.lookup row.itemId).isNone).filter fun row => !decide (row.itemId = itemId) := by
    rw [List.filter_filter]
    apply List.filter_congr
    intro row _
    rw [State.upsertTax, Table.lookup_insertOrReplace]
    by_cases hsame : row.itemId = itemId
    · simp [hsame]
    · simp [hsame]
  rw [missingItems, hrows, byRank_filter hseparates, missingItems, List.filter_map]
  rfl

theorem eligible_upsertTax {now : Int} {item : Item} (h : item ∈ eligible s now) (tax : Int) (fetchedAt : String) :
    eligible (s.upsertTax item.1 tax fetchedAt) now = (eligible s now).erase item := by
  rw [← filter_ne_eq_erase (nodup_eligible s now) h, eligible, missingItems_upsertTax, eligible, List.filter_filter,
    List.filter_filter]
  apply List.filter_congr
  intro other _
  exact Bool.and_comm _ _

theorem eligible_defer {now : Int} {item : Item} (h : item ∈ eligible s now) {until_ : Int} (hnow : now < until_) :
    eligible (s.defer item.1 until_) now = (eligible s now).erase item := by
  rw [← filter_ne_eq_erase (nodup_eligible s now) h, eligible, eligible, List.filter_filter]
  apply List.filter_congr
  intro other _
  rw [State.setAside, State.defer, Table.lookup_insertOrReplace]
  by_cases hsame : other.1 = item.1
  · simp [hsame, hnow]
  · simp [hsame, State.setAside]

/-- No deferral of an item without a tax ends between two instants. -/
def Quiet (s : State) (first last : Int) : Prop :=
  ∀ item ∈ missingItems s, s.setAside first item.1 = true → s.setAside last item.1 = true

/-- The call settles the item: its tax is stored, or it is set aside beyond `last`. -/
def Call.Settles (reader : Reader Body) (last : Int) (c : Call Body) (item : Item) : Prop :=
  match c.fate reader item.2 with
  | .tax _ => c.stored = true
  | .setAside until_ => last < until_
  | .nothing => False

/-- Calls between two instants, each of which settles the item it fetches. -/
structure Pass (clock : Clock) (reader : Reader Body) (s : State) (first last : Int) (calls : List (Call Body)) :
    Prop where
  le : first ≤ last
  within : ∀ c ∈ calls, first ≤ c.now ∧ c.now ≤ last
  settled : ∀ p ∈ fetches clock reader s calls, p.1.Settles reader last p.2

/-- What is set aside later was so before. -/
theorem setAside_of_le {now later : Int} (hle : now ≤ later) {itemId : String} (h : s.setAside later itemId = true) :
    s.setAside now itemId = true := by
  rw [State.setAside, Option.any_eq_true] at h ⊢
  obtain ⟨d, hd, huntil⟩ := h
  exact ⟨d, hd, decide_eq_true (hle.trans_lt (of_decide_eq_true huntil))⟩

theorem eligible_eq {first last now : Int} (hquiet : Quiet s first last) (hfirst : first ≤ now) (hlast : now ≤ last) :
    eligible s now = eligible s first := by
  apply List.filter_congr
  intro item hitem
  congr 1
  rw [Bool.eq_iff_iff]
  exact ⟨setAside_of_le hfirst, fun h => setAside_of_le hlast (hquiet item hitem h)⟩

namespace Pass

variable {first last : Int} {c : Call Body} {calls : List (Call Body)}

theorem tail (h : Pass clock reader s first last (c :: calls)) :
    Pass clock reader (fetchOnceWith clock reader s c).2 first last calls where
  le := h.le
  within c hc := h.within c (List.mem_cons_of_mem _ hc)
  settled p hp := h.settled p (List.mem_append_right _ hp)

/-- The item that the first call fetches is settled. -/
theorem head (h : Pass clock reader s first last (c :: calls)) {item : Item} (hitem : fetched s c = some item) :
    c.Settles reader last item := by
  have htaken : takeNext c.prefers (eligible s c.now) = some item := hitem
  refine h.settled (c, item) ?_
  rw [fetches, picks, htaken]
  exact List.mem_cons_self

theorem step (h : Pass clock reader s first last (c :: calls)) (hquiet : Quiet s first last) :
    (eligible s c.now = [] ∧ fetchOnceWith clock reader s c = (.ok none, s)) ∨
    ∃ item, takeNext c.prefers (eligible s c.now) = some item ∧
      (fetchOnceWith clock reader s c).1 = .ok (some (eligible s c.now).length) ∧
      eligible (fetchOnceWith clock reader s c).2 first = (eligible s first).erase item ∧
      Quiet (fetchOnceWith clock reader s c).2 first last := by
  obtain ⟨hfirst, hlast⟩ := h.within c List.mem_cons_self
  have heq := eligible_eq hquiet hfirst hlast
  have hcourse := @fetchOnceWith_course Body clock reader s c
  have hsettles := @head Body clock reader s _ _ _ _ h
  generalize fetchOnceWith clock reader s c = result at hcourse ⊢
  cases hcourse with
  | idle hnone => exact .inl ⟨takeNext_eq_none.mp hnone, rfl⟩
  | lost hitem hfate hlost =>
      have hstored := hsettles hitem
      rw [Call.Settles, hfate, hlost] at hstored
      cases hstored
  | blocked hitem hblocked =>
      have hnothing := hsettles hitem
      rw [Call.Settles, hblocked] at hnothing
      exact hnothing.elim
  | @stored item tax hitem _ _ =>
      have hmem : item ∈ eligible s first := heq ▸ mem_of_takeNext hitem
      refine .inr ⟨item, hitem, rfl, eligible_upsertTax hmem _ _, ?_⟩
      intro other hother
      rw [missingItems_upsertTax] at hother
      exact hquiet other (List.mem_filter.mp hother).1
  | @setAside item until_ hitem hfate =>
      have hmem : item ∈ eligible s first := heq ▸ mem_of_takeNext hitem
      have huntil : last < until_ := by
        have haside := hsettles hitem
        rw [Call.Settles, hfate] at haside
        exact haside
      refine .inr ⟨item, hitem, rfl, eligible_defer hmem (h.le.trans_lt huntil), ?_⟩
      intro other hother haside
      by_cases hsame : other.1 = item.1
      · rw [State.setAside, State.defer, Table.lookup_insertOrReplace, if_pos hsame]
        exact decide_eq_true huntil
      · rw [State.setAside, State.defer, Table.lookup_insertOrReplace, if_neg hsame] at haside ⊢
        exact hquiet other hother haside

theorem serves (h : Pass clock reader s first last calls) (hquiet : Quiet s first last) :
    Serves (fetchOnceWith clock reader) .ok (fun s c => eligible s c.now) Call.prefers s (eligible s first) calls
      (eligible (afterCalls clock reader s calls) last) := by
  induction calls generalizing s with
  | nil =>
      rw [afterCalls, List.foldl_nil, eligible_eq hquiet h.le (le_refl _)]
      exact .done s _
  | cons c calls ih =>
      obtain ⟨hfirst, hlast⟩ := h.within c List.mem_cons_self
      have heq := eligible_eq hquiet hfirst hlast
      have htail := h.tail
      rcases @step Body clock reader s _ _ _ _ h hquiet with ⟨hnil, hcall⟩ | ⟨item, htaken, hreturned, hrest, hquiet'⟩
      · rw [hcall] at htail
        have hrun := ih htail hquiet
        rw [← heq, hnil] at hrun ⊢
        rw [afterCalls, List.foldl_cons, hcall]
        exact .idle hnil hcall hrun
      · have hrun := ih htail hquiet'
        rw [hrest, ← heq] at hrun
        rw [← heq]
        exact .take htaken hreturned hrun

end Pass

/-- A pass asks for every item whose tax is missing once, the hot ones first where the hot set stays as it is, and
leaves none behind when it makes as many calls. -/
theorem tax_pass {first last : Int} {calls : List (Call Body)} (hquiet : Quiet s first last)
    (h : Pass clock reader s first last calls) :
    let missing := eligible s first
    let after := afterCalls clock reader s calls
    let items := (fetches clock reader s calls).map Prod.snd
    items ++ eligible after last ~ missing ∧ items.length = min calls.length missing.length ∧
      (∀ hot, (∀ c ∈ calls, c.hot = hot) →
        preferredFirst (fun item : Item => hot.contains item.1) missing =
          items ++ preferredFirst (fun item : Item => hot.contains item.1) (eligible after last)) ∧
      (missing.length ≤ calls.length → eligible after last = []) := by
  intro missing after items
  have hserves := h.serves hquiet
  refine ⟨hserves.perm, ?_, ?_, hserves.rest_eq_nil⟩
  · rw [List.length_map]
    exact hserves.length_picks
  · intro hot hhot
    apply hserves.preferred
    intro c hc
    funext item
    rw [Call.prefers, hhot c hc]

/-! #### A 404 and a tax at nine -/

def taxReader : Reader Json := ⟨.ok, fun _ => some 8000⟩

/-- An answer with a tax. -/
def taxed : Json := .object [("data".toList, .object [("tradingTax".toList, .number "8000".toList)])]

def taxCall (seconds : Int) (answer : Except FetchError Json) : Call Json :=
  ⟨["item2"], Refresh.morning seconds, fun _ _ => answer, true⟩

/-- Two items, no tax stored. -/
def untaxed : State := ⟨Refresh.morningTables.sweepState, .empty, .empty⟩

theorem eligible_untaxed : eligible untaxed (Refresh.morning 0) = [("item1", "slug1"), ("item2", "slug2")] := by
  rw [eligible, missingItems, byRank_of_pairwise]
  · decide +kernel
  · decide +kernel

theorem fate_taxed (seconds : Int) (slug : String) : (taxCall seconds (.ok taxed)).fate taxReader slug = .tax 8000 := by
  have hparse : parseTradingTax taxReader taxed = .ok 8000 := by decide +kernel
  have hanswer : Statistics.fetchWithRetries ((taxCall seconds (.ok taxed)).source slug) = .ok taxed := rfl
  simp only [Call.fate, hanswer, hparse]

theorem fetched_untaxed (answer : Except FetchError Json) :
    fetched untaxed (taxCall 0 answer) = some ("item2", "slug2") := by
  have heligible : eligible untaxed (taxCall 0 answer).now = [("item1", "slug1"), ("item2", "slug2")] :=
    eligible_untaxed
  rw [fetched, heligible]
  rfl

theorem tax_pass_nine :
    let calls := [taxCall 0 (.ok taxed), taxCall 10 (.error .notFound)]
    (fetches Refresh.morningClock taxReader untaxed calls).map Prod.snd = [("item2", "slug2"), ("item1", "slug1")] ∧
      eligible (afterCalls Refresh.morningClock taxReader untaxed calls) (Refresh.morning 10) = [] := by
  intro calls
  have hpass : Pass Refresh.morningClock taxReader untaxed (Refresh.morning 0) (Refresh.morning 10) calls := by
    refine ⟨by decide +kernel, ?_, ?_⟩
    · intro c hc
      rcases List.mem_pair.mp hc with rfl | rfl
      · decide +kernel
      · decide +kernel
    · intro p hp
      have hcall : p.1 ∈ calls := Serves.call_of_mem_picks hp
      rcases List.mem_pair.mp hcall with hc | hc
      · rw [Call.Settles, hc, fate_taxed]
        rfl
      · have hfate : p.1.fate taxReader p.2.2 = .setAside forTheRun := by
          rw [hc]
          rfl
        rw [Call.Settles, hfate]
        exact (by decide +kernel : Refresh.morning 10 < forTheRun)
  have hquiet : Quiet untaxed (Refresh.morning 0) (Refresh.morning 10) := by
    rintro item - haside
    cases haside
  obtain ⟨-, -, hhot, hnone⟩ := @tax_pass Json Refresh.morningClock taxReader untaxed _ _ _ hquiet hpass
  have hrest := hnone (by rw [eligible_untaxed]; decide)
  refine ⟨?_, hrest⟩
  have hitems := hhot ["item2"] (by
    intro c hc
    rcases List.mem_pair.mp hc with rfl | rfl
    · rfl
    · rfl)
  rw [hrest, eligible_untaxed] at hitems
  simpa [preferredFirst] using hitems.symm

/-! ### Whole runs of the process -/

inductive Event (Body : Type) where
  | call (c : Call Body)
  | restart
  /-- A sync with the item list, or a sweep. -/
  | sweepState (t : Table SweepState.itemId)

def Event.apply (clock : Clock) (reader : Reader Body) (s : State) : Event Body → State
  | .call c => (fetchOnceWith clock reader s c).2
  | .restart => { s with deferred := .empty }
  | .sweepState t => { s with sweepState := t }

def afterEvents (clock : Clock) (reader : Reader Body) (s : State) (events : List (Event Body)) : State :=
  events.foldl (Event.apply clock reader) s

/-- A stored tax stays. -/
theorem lookup_apply {itemId : String} {row : TaxRow} (h : s.itemTradeTax.lookup itemId = some row) (e : Event Body) :
    (e.apply clock reader s).itemTradeTax.lookup itemId = some row := by
  cases e with
  | restart | sweepState _ => exact h
  | call c =>
      have hcourse := @fetchOnceWith_course Body clock reader s c
      rw [Event.apply]
      generalize fetchOnceWith clock reader s c = result at hcourse ⊢
      cases hcourse with
      | idle _ | lost _ _ _ | setAside _ _ | blocked _ _ => exact h
      | @stored item tax hitem _ _ =>
          have hmissing := (mem_eligible (mem_of_takeNext hitem)).1
          have hother : itemId ≠ item.1 := by
            intro hsame
            rw [← hsame, h] at hmissing
            cases hmissing
          rw [State.upsertTax, Table.lookup_insertOrReplace, if_neg hother]
          exact h

theorem lookup_afterEvents {itemId : String} {row : TaxRow} (h : s.itemTradeTax.lookup itemId = some row)
    (events : List (Event Body)) : (afterEvents clock reader s events).itemTradeTax.lookup itemId = some row := by
  induction events generalizing s with
  | nil => exact h
  | cons e events ih => exact ih (lookup_apply h e)

/-- An item that is set aside stays so, while the process runs and its time is not over. -/
theorem setAside_apply {itemId : String} {until_ last : Int} (h : s.deferred.lookup itemId = some ⟨itemId, until_⟩)
    (hlast : last < until_) {e : Event Body} (hrestart : e ≠ .restart) (hnow : ∀ c, e = .call c → c.now ≤ last) :
    (e.apply clock reader s).deferred.lookup itemId = some ⟨itemId, until_⟩ := by
  cases e with
  | restart => exact absurd rfl hrestart
  | sweepState _ => exact h
  | call c =>
      have hcourse := @fetchOnceWith_course Body clock reader s c
      rw [Event.apply]
      generalize fetchOnceWith clock reader s c = result at hcourse ⊢
      cases hcourse with
      | idle _ | lost _ _ _ | stored _ _ _ | blocked _ _ => exact h
      | @setAside item until' hitem _ =>
          have hfree := (mem_eligible (mem_of_takeNext hitem)).2.1
          have hother : itemId ≠ item.1 := by
            rintro rfl
            have hbefore : c.now < until_ := (hnow c rfl).trans_lt hlast
            rw [State.setAside, h] at hfree
            simp [hbefore] at hfree
          rw [State.defer, Table.lookup_insertOrReplace, if_neg hother]
          exact h

/-- Once a tax is stored it stays as it is and its item is never asked for again, restarts or not. An item that was
set aside is not asked for again before its time is over, which for a 404 or an unusable answer is the end of the
process. -/
theorem tax_settled {c c' : Call Body} {between : List (Event Body)} {item : Item}
    (hitem : fetched s c = some item) :
    let after := afterEvents clock reader (fetchOnceWith clock reader s c).2 between
    (∀ tax, c.fate reader item.2 = .tax tax → c.stored = true →
      after.itemTradeTax.lookup item.1 = some ⟨item.1, tax, clock.ts c.now⟩ ∧ (item.1, tax) ∈ after.loadAll ∧
        ∀ item', fetched after c' = some item' → item'.1 ≠ item.1) ∧
    (∀ until_, c.fate reader item.2 = .setAside until_ → Event.restart ∉ between →
      (∀ d, Event.call d ∈ between → d.now ≤ c'.now) → c'.now < until_ →
        ∀ item', fetched after c' = some item' → item'.1 ≠ item.1) := by
  intro after
  constructor
  · intro tax hfate hstored
    have hrow : after.itemTradeTax.lookup item.1 = some ⟨item.1, tax, clock.ts c.now⟩ := by
      apply lookup_afterEvents
      rw [fetchOnceWith_stored hitem hfate hstored, State.upsertTax, Table.lookup_insertOrReplace, if_pos rfl]
    refine ⟨hrow, List.mem_map.mpr ⟨_, Table.mem_of_lookup hrow, rfl⟩, ?_⟩
    rintro item' hitem' hsame
    have hmissing := (mem_eligible (mem_of_takeNext hitem')).1
    rw [hsame, hrow] at hmissing
    cases hmissing
  · intro until_ hfate hrestart hnow hbefore
    have hstart : (fetchOnceWith clock reader s c).2.deferred.lookup item.1 = some ⟨item.1, until_⟩ := by
      rw [fetchOnceWith_setAside hitem hfate, State.defer, Table.lookup_insertOrReplace, if_pos rfl]
    have hrun : ∀ t : State, t.deferred.lookup item.1 = some ⟨item.1, until_⟩ →
        (afterEvents clock reader t between).deferred.lookup item.1 = some ⟨item.1, until_⟩ := by
      clear after
      induction between with
      | nil => exact fun _ h => h
      | cons e between ih =>
          intro t h
          have he : e ≠ .restart := fun heq => hrestart (heq ▸ List.mem_cons_self)
          have hcall : ∀ d, e = .call d → d.now ≤ c'.now := fun d heq => hnow d (heq ▸ List.mem_cons_self)
          exact ih (fun hmem => hrestart (List.mem_cons_of_mem _ hmem))
            (fun d hd => hnow d (List.mem_cons_of_mem _ hd)) _ (setAside_apply h hbefore he hcall)
    have haside : after.deferred.lookup item.1 = some ⟨item.1, until_⟩ := hrun _ hstart
    rintro item' hitem' hsame
    have hfree := (mem_eligible (mem_of_takeNext hitem')).2.1
    rw [hsame, State.setAside, haside, Option.any_some] at hfree
    exact of_decide_eq_false hfree hbefore

/-- The tax stored at nine is not asked for at ten, after a restart in between; nor is an item that was not found. -/
theorem tax_settled_nine :
    (let after := afterEvents Refresh.morningClock taxReader
      (fetchOnceWith Refresh.morningClock taxReader untaxed (taxCall 0 (.ok taxed))).2
      [.call (taxCall 10 (.error .notFound)), .restart]
    after.itemTradeTax.lookup "item2" = some ⟨"item2", 8000, "1970-01-11T09:00:00Z"⟩ ∧ ("item2", 8000) ∈ after.loadAll ∧
      ∀ item', fetched after (taxCall 3610 (.ok taxed)) = some item' → item'.1 ≠ "item2") ∧
    ∀ item', fetched (afterEvents Refresh.morningClock taxReader
      (fetchOnceWith Refresh.morningClock taxReader untaxed (taxCall 0 (.error .notFound))).2
      [.call (taxCall 10 (.ok taxed))]) (taxCall 3610 (.ok taxed)) = some item' → item'.1 ≠ "item2" := by
  have hstored := @tax_settled Json Refresh.morningClock taxReader untaxed _ (taxCall 3610 (.ok taxed))
    [.call (taxCall 10 (.error .notFound)), .restart] _ (fetched_untaxed (.ok taxed))
  have haside := @tax_settled Json Refresh.morningClock taxReader untaxed _ (taxCall 3610 (.ok taxed))
    [.call (taxCall 10 (.ok taxed))] _ (fetched_untaxed (.error .notFound))
  refine ⟨hstored.1 8000 (fate_taxed 0 "slug2") rfl, haside.2 forTheRun rfl ?_ ?_ (by decide +kernel)⟩
  · intro hrestart
    cases List.mem_singleton.mp hrestart
  · intro d hd
    cases List.mem_singleton.mp hd
    decide +kernel

end Quantframe.Collector.TradeTax
