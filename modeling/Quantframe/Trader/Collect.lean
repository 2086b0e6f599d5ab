import Mathlib.Algebra.Order.Ring.Unbundled.Rat
import Quantframe.Lib.Table
import Quantframe.LogParser.Dialog
import Quantframe.Trader.Orders

/-!
# The entries of a cycle

Buy candidates, stock and wish list are merged by a display string, while prices and orders know an item's
sub-types by their key.
-/

namespace Quantframe.Trader

open Lib Market
open Handlers (OperationSet Json)
open LogParser (trim)
open Trades (Error SubType)

/-! ### Buy candidates -/

/-- The further operations on `f64` that ranking uses; `totalLe` is `total_cmp`. -/
structure CandidateFloats (F : Type) extends PriceFloats F where
  mul : F → F → F
  min : F → F → F
  totalLe : F → F → Bool

inductive CandidateRanking where
  | expectedProfit
  | volume
  deriving DecidableEq, Repr

structure CandidateSettings extends ItemWtbSettings where
  volumeThreshold : Int
  tradingTaxCap : Int
  priceShiftThreshold : Int
  buyQuantity : Int
  maxBuyCandidates : Int
  candidateRanking : CandidateRanking

structure PriceRow (F : Type) extends ItemPriceInfo F where
  uuid : String
  wfmUrl : String
  wfmId : String
  subType : Option SubType
  volume : F
  profit : F
  tradingTax : Int
  weekPriceShift : F
  maxRank : Option Int

/-- What `all` and `has_shift` of the price source give. -/
structure PriceSource (F : Type) where
  all : List (PriceRow F)
  hasShift : String → String → Bool

section Candidates

variable {F : Type} (num : CandidateFloats F) (wtb : CandidateSettings)

def passes (prices : PriceSource F) (i : PriceRow F) : Bool :=
  let shiftOk := wtb.priceShiftThreshold = -1 || !prices.hasShift i.wfmId (keyOf i.subType) ||
    !num.lt i.weekPriceShift (num.ofInt wtb.priceShiftThreshold)
  let rankOk := match i.subType.bind SubType.rank, i.maxRank with
    | some rank, some max => decide (max ≤ rank)
    | _, _ => true
  (isDisabled wtb.volumeThreshold || num.lt (num.ofInt wtb.volumeThreshold) i.volume) &&
    (isDisabled wtb.profitThreshold || num.lt (num.ofInt wtb.profitThreshold) i.profit) &&
    (isDisabled wtb.avgPriceCap || !num.lt (num.ofInt wtb.avgPriceCap) i.avgPrice) &&
    shiftOk && (isDisabled wtb.tradingTaxCap || decide (i.tradingTax ≤ wtb.tradingTaxCap)) && rankOk

def rankVolumeCap : F := num.ofInt 50

/-- The sort key, higher first. -/
def rankKey (item : PriceRow F) : CandidateRanking → F
  | .expectedProfit => num.mul item.profit (num.min item.volume (rankVolumeCap num))
  | .volume => item.volume

/-- By rank key, then volume, then uuid. -/
def ranksBefore (ranking : CandidateRanking) (a b : PriceRow F) : Bool :=
  let keyA := rankKey num a ranking
  let keyB := rankKey num b ranking
  if !num.totalLe keyA keyB then true
  else if !num.totalLe keyB keyA then false
  else if !num.totalLe a.volume b.volume then true
  else if !num.totalLe b.volume a.volume then false
  else decide (a.uuid ≤ b.uuid)

def topCandidates (items : List (PriceRow F)) (ranking : CandidateRanking) : List (PriceRow F) :=
  let sorted := items.insertionSort fun a b => ranksBefore num ranking a b = true
  if isDisabled wtb.maxBuyCandidates then sorted else sorted.take wtb.maxBuyCandidates.toNat

def getInterestingItems (prices : PriceSource F) : List (PriceRow F) :=
  topCandidates num wtb (prices.all.filter (passes num wtb prices)) wtb.candidateRanking

end Candidates

/-! ### Names -/

/-- The fields that are set, for display. -/
def shotDisplay (s : SubType) : String :=
  let parts := [s.rank.map fun r => "R " ++ toString r ++ " ", s.charges.map fun c => "Ch " ++ toString c ++ " ",
    s.variant.map fun v => "V " ++ v ++ " ", s.amberStars.map fun a => "A " ++ toString a ++ " ",
    s.cyanStars.map fun c => "C " ++ toString c ++ " "]
  String.ofList (trim (String.join (parts.filterMap id)).toList)

/-- The url with the displayed sub-type. -/
def displayName (wfmUrl : String) (subType : Option SubType) : String :=
  match subType with
  | some s => wfmUrl ++ "-" ++ shotDisplay s
  | none => wfmUrl

/-- How an item is named by each source of entries. -/
structure ItemName where
  wfmUrl : String
  wfmId : String
  subType : Option SubType
  deriving DecidableEq, Repr

namespace ItemName

def uuid (n : ItemName) : String := displayName n.wfmUrl n.subType

/-- What prices and orders know the item by. -/
def key (n : ItemName) : String × String := (n.wfmId, keyOf n.subType)

end ItemName

def ItemEntry.name (e : ItemEntry) : ItemName := ⟨e.wfmUrl, e.wfmId, e.subType⟩

def ItemEntry.uuid (e : ItemEntry) : String := e.name.uuid

def stockName (s : Handlers.StockItem) : ItemName := ⟨s.wfmUrl, s.wfmId, s.subType⟩

def wishName (w : Handlers.WishListItem) : ItemName := ⟨w.wfmUrl, w.wfmId, w.subType⟩

def PriceRow.name {F : Type} (p : PriceRow F) : ItemName := ⟨p.wfmUrl, p.wfmId, p.subType⟩

namespace ItemEntry

/-- `From<&ItemPriceInfo>`, with the quantity to buy. -/
def ofPrice {F : Type} (buyQuantity : Int) (p : PriceRow F) : ItemEntry where
  wfmUrl := p.wfmUrl
  wfmId := p.wfmId
  subType := p.subType
  priority := 0
  buyQuantity := buyQuantity
  operations := ["Buy"]

/-- `From<&StockItemModel>`. -/
def ofStock (s : Handlers.StockItem) : ItemEntry where
  stockId := some s.id
  wfmUrl := s.wfmUrl
  wfmId := s.wfmId
  subType := s.subType
  priority := 1
  sellQuantity := s.owned
  operations := ["Sell"]

/-- `From<&WishListModel>`. -/
def ofWish (w : Handlers.WishListItem) : ItemEntry where
  wishListId := some w.id
  wfmUrl := w.wfmUrl
  wfmId := w.wfmId
  subType := w.subType
  priority := 2
  buyQuantity := w.quantity
  operations := ["WishList"]

def addStock (s : Handlers.StockItem) (e : ItemEntry) : ItemEntry :=
  { e with
    priority := 1
    sellQuantity := s.owned
    stockId := some s.id
    operations := OperationSet.add e.operations "Sell" }

def addWish (w : Handlers.WishListItem) (e : ItemEntry) : ItemEntry :=
  { e with
    priority := 2
    buyQuantity := w.quantity
    wishListId := some w.id
    operations := OperationSet.add e.operations "WishList" }

end ItemEntry

/-! ### Collecting -/

/-- The entries by uuid; the order of `into_values` is not specified. -/
abbrev EntryMap := Table fun r : String × ItemEntry => r.1

/-- `entry(uuid).and_modify(modify).or_insert(fresh)`. -/
def EntryMap.upsert (m : EntryMap) (uuid : String) (modify : ItemEntry → ItemEntry) (fresh : ItemEntry) : EntryMap :=
  m.insertOrReplace (uuid, ((m.lookup uuid).map fun r => modify r.2).getD fresh)

def EntryMap.values (m : EntryMap) : List ItemEntry := m.rows.map Prod.snd

/-- What `collect_interesting_items` reads; the tables may fail. -/
structure Collected (F : Type) where
  settings : Settings
  wtb : CandidateSettings
  prices : PriceSource F
  stockItems : Except Error (Table Handlers.StockItem.id)
  wishItems : Except Error (Table Handlers.WishListItem.id)
  debugEntries : List Json
  parseEntries : List Json → Except Error (List ItemEntry)

namespace Collected

variable {F : Type} (num : CandidateFloats F) (c : Collected F)

def blacklisted (n : ItemName) (mode : TradeMode) : Bool :=
  c.settings.general.isItemBlacklisted n.wfmId n.subType mode

/-- The buy candidates that are not blacklisted. -/
def candidates : List (PriceRow F) :=
  if c.settings.hasTradeMode .buy then
    (getInterestingItems num c.wtb c.prices).filter fun p => !c.blacklisted p.name .buy
  else []

/-- The rows of a table that a mode works on. -/
def active {ρ : Type} (mode : TradeMode) (name : ρ → ItemName) (rows : List ρ) : List ρ :=
  if c.settings.hasTradeMode mode then rows.filter fun r => !c.blacklisted (name r) mode else []

end Collected

def insertCandidate {F : Type} (buyQuantity : Int) (m : EntryMap) (p : PriceRow F) : EntryMap :=
  let entry := ItemEntry.ofPrice buyQuantity p
  m.insertOrReplace (entry.uuid, entry)

def mergeStock (m : EntryMap) (s : Handlers.StockItem) : EntryMap := m.upsert (stockName s).uuid (.addStock s) (.ofStock s)

def mergeWish (m : EntryMap) (w : Handlers.WishListItem) : EntryMap := m.upsert (wishName w).uuid (.addWish w) (.ofWish w)

/-- The rows of a table, when the mode asks for them. -/
def rowsFor {F ρ : Type} {id : ρ → Int} (c : Collected F) (mode : TradeMode) (table : Except Error (Table id)) :
    Except Error (List ρ) :=
  if c.settings.hasTradeMode mode then table.map Table.rows else .ok []

def collectInterestingItems {F : Type} (num : CandidateFloats F) (c : Collected F) : Except Error (List ItemEntry) := do
  if c.debugEntries ≠ [] then c.parseEntries c.debugEntries
  else do
    let entries := (c.candidates num).foldl (insertCandidate c.wtb.buyQuantity) .empty
    let stock ← rowsFor c .sell c.stockItems
    let entries := (c.active .sell stockName stock).foldl mergeStock entries
    let wish ← rowsFor c .wishList c.wishItems
    let entries := (c.active .wishList wishName wish).foldl mergeWish entries
    pure entries.values

/-! ### The entry of a name -/

/-- What the sources make of one uuid. -/
def candidateStep {F : Type} (buyQuantity : Int) (_ : Option ItemEntry) (p : PriceRow F) : Option ItemEntry :=
  some (.ofPrice buyQuantity p)

def stockStep (e : Option ItemEntry) (s : Handlers.StockItem) : Option ItemEntry :=
  some ((e.map (ItemEntry.addStock s)).getD (.ofStock s))

def wishStep (e : Option ItemEntry) (w : Handlers.WishListItem) : Option ItemEntry :=
  some ((e.map (ItemEntry.addWish w)).getD (.ofWish w))

/-- The entry of a map under a uuid. -/
def EntryMap.get (m : EntryMap) (uuid : String) : Option ItemEntry := (m.lookup uuid).map Prod.snd

section Merging

variable {F : Type} {m : EntryMap} {uuid : String}

theorem get_insertOrReplace (m : EntryMap) (name : String) (e : ItemEntry) (uuid : String) :
    EntryMap.get (m.insertOrReplace (name, e)) uuid = if uuid = name then some e else m.get uuid := by
  rw [EntryMap.get, Table.lookup_insertOrReplace]
  split
  · rfl
  · rfl

theorem get_upsert (m : EntryMap) (name : String) (modify : ItemEntry → ItemEntry) (fresh : ItemEntry) (uuid : String) :
    (m.upsert name modify fresh).get uuid =
      if uuid = name then some (((m.get name).map modify).getD fresh) else m.get uuid := by
  rw [EntryMap.upsert, get_insertOrReplace, EntryMap.get, EntryMap.get, Option.map_map]
  rfl

/-- Only the sources of a uuid touch its entry. -/
theorem get_foldl {ρ : Type} {name : ρ → String} {merge : EntryMap → ρ → EntryMap}
    {step : Option ItemEntry → ρ → Option ItemEntry}
    (h : ∀ m r uuid, (merge m r).get uuid = if uuid = name r then step (m.get uuid) r else m.get uuid)
    (rows : List ρ) (m : EntryMap) (uuid : String) :
    (rows.foldl merge m).get uuid = (rows.filter fun r => decide (name r = uuid)).foldl step (m.get uuid) := by
  induction rows generalizing m with
  | nil => rfl
  | cons r rows ih =>
      rw [List.foldl_cons, ih, h, List.filter_cons]
      by_cases hr : name r = uuid
      · simp [hr]
      · simp [hr, Ne.symm hr]

theorem get_mergeStock (m : EntryMap) (s : Handlers.StockItem) (uuid : String) :
    (mergeStock m s).get uuid = if uuid = (stockName s).uuid then stockStep (m.get uuid) s else m.get uuid := by
  rw [mergeStock, get_upsert]
  split
  · next h => rw [h, stockStep]
  · rfl

theorem get_mergeWish (m : EntryMap) (w : Handlers.WishListItem) (uuid : String) :
    (mergeWish m w).get uuid = if uuid = (wishName w).uuid then wishStep (m.get uuid) w else m.get uuid := by
  rw [mergeWish, get_upsert]
  split
  · next h => rw [h, wishStep]
  · rfl

theorem get_insertCandidate (buyQuantity : Int) (m : EntryMap) (p : PriceRow F) (uuid : String) :
    (insertCandidate buyQuantity m p).get uuid =
      if uuid = p.name.uuid then candidateStep buyQuantity (m.get uuid) p else m.get uuid := get_insertOrReplace ..

/-- The sources of a cycle: what is left of each table. -/
structure Sources (F : Type) where
  candidates : List (PriceRow F)
  stock : List Handlers.StockItem
  wish : List Handlers.WishListItem
  buyQuantity : Int

namespace Sources

variable (src : Sources F)

def names : List ItemName :=
  src.candidates.map PriceRow.name ++ src.stock.map stockName ++ src.wish.map wishName

def merged : EntryMap :=
  src.wish.foldl mergeWish (src.stock.foldl mergeStock (src.candidates.foldl (insertCandidate src.buyQuantity) .empty))

/-- The rows of each source under a uuid. -/
def candidatesAt (uuid : String) : List (PriceRow F) := src.candidates.filter fun p => decide (p.name.uuid = uuid)

def stockAt (uuid : String) : List Handlers.StockItem := src.stock.filter fun s => decide ((stockName s).uuid = uuid)

def wishAt (uuid : String) : List Handlers.WishListItem := src.wish.filter fun w => decide ((wishName w).uuid = uuid)

def entryAt (uuid : String) : Option ItemEntry :=
  (src.wishAt uuid).foldl wishStep ((src.stockAt uuid).foldl stockStep
    ((src.candidatesAt uuid).foldl (candidateStep src.buyQuantity) none))

theorem get_merged (uuid : String) : src.merged.get uuid = src.entryAt uuid := by
  rw [merged, get_foldl get_mergeWish, get_foldl get_mergeStock, get_foldl (get_insertCandidate src.buyQuantity)]
  rfl

/-! ### One entry per key -/

end Sources

/-- What an entry is to do. -/
structure ItemEntry.Work where
  operations : OperationSet
  stockId : Option Int
  sellQuantity : Int
  wishListId : Option Int
  buyQuantity : Int
  deriving DecidableEq, Repr

def ItemEntry.work (e : ItemEntry) : Work := ⟨e.operations, e.stockId, e.sellQuantity, e.wishListId, e.buyQuantity⟩

/-- The work that the rows of one key make. -/
def workFrom (buyQuantity : Int) (p : Option (PriceRow F)) (s : Option Handlers.StockItem)
    (w : Option Handlers.WishListItem) : ItemEntry.Work where
  operations := (if p.isSome then ["Buy"] else []) ++ (if s.isSome then ["Sell"] else []) ++
    (if w.isSome then ["WishList"] else [])
  stockId := s.map Handlers.StockItem.id
  sellQuantity := (s.map Handlers.StockItem.owned).getD 0
  wishListId := w.map Handlers.WishListItem.id
  buyQuantity := (w.map Handlers.WishListItem.quantity).getD (if p.isSome then buyQuantity else 0)

namespace Sources

variable (src : Sources F)

def workOf (key : String × String) : ItemEntry.Work :=
  workFrom src.buyQuantity (src.candidates.find? fun p => decide (p.name.key = key))
    (src.stock.find? fun s => decide ((stockName s).key = key)) (src.wish.find? fun w => decide ((wishName w).key = key))

/-- The entries are one for each key, with the work of all its sources. -/
structure OnePerKey (entries : List ItemEntry) : Prop where
  distinct : (entries.map fun e => e.name.key).Nodup
  complete : ∀ n ∈ src.names, ∃ e ∈ entries, e.name.key = n.key
  work : ∀ e ∈ entries, e.work = src.workOf e.name.key

/-- Two sources have the same uuid exactly when they have the same key. -/
def Agree : Prop := ∀ a ∈ src.names, ∀ b ∈ src.names, a.uuid = b.uuid ↔ a.key = b.key

/-- Each table has one row for a key and one for an id. -/
structure Keyed : Prop where
  candidates : (src.candidates.map fun p => p.name.key).Nodup
  stock : (src.stock.map fun s => (stockName s).key).Nodup
  wish : (src.wish.map fun w => (wishName w).key).Nodup
  stockIds : (src.stock.map Handlers.StockItem.id).Nodup
  wishIds : (src.wish.map Handlers.WishListItem.id).Nodup

end Sources

/-- What at most one row of each source makes. -/
theorem work_of_options (buyQuantity : Int) (p : Option (PriceRow F)) (s : Option Handlers.StockItem)
    (w : Option Handlers.WishListItem) {e : ItemEntry}
    (h : w.toList.foldl wishStep (s.toList.foldl stockStep (p.toList.foldl (candidateStep buyQuantity) none)) = some e) :
    e.work = workFrom buyQuantity p s w := by
  cases p <;> cases s <;> cases w <;> cases h <;> rfl

namespace Sources

variable {src : Sources F} {e : ItemEntry}

/-- Where an entry under a uuid comes from. -/
structure Origin (src : Sources F) (uuid : String) (e : ItemEntry) : Prop where
  name : e.name ∈ src.names ∧ e.uuid = uuid
  stock : ∀ id, e.stockId = some id → ∃ s ∈ src.stock, (stockName s).uuid = uuid ∧ s.id = id
  wish : ∀ id, e.wishListId = some id → ∃ w ∈ src.wish, (wishName w).uuid = uuid ∧ w.id = id
  buy : OperationSet.has e.operations "Buy" = true → ∃ p ∈ src.candidates, p.name = e.name

theorem origin_candidate {p : PriceRow F} (h : p ∈ src.candidates) :
    src.Origin p.name.uuid (.ofPrice src.buyQuantity p) :=
  ⟨⟨List.mem_append_left _ (List.mem_append_left _ (List.mem_map_of_mem h)), rfl⟩, nofun, nofun, fun _ => ⟨p, h, rfl⟩⟩

theorem origin_stock {s : Handlers.StockItem} {o : Option ItemEntry} (h : s ∈ src.stock)
    (ho : ∀ e, o = some e → src.Origin (stockName s).uuid e) (he : stockStep o s = some e) :
    src.Origin (stockName s).uuid e := by
  cases o with
  | none =>
      cases he
      refine ⟨⟨List.mem_append_left _ (List.mem_append_right _ (List.mem_map_of_mem h)), rfl⟩, ?_, nofun, nofun⟩
      rintro id ⟨⟩
      exact ⟨s, h, rfl, rfl⟩
  | some old =>
      cases he
      obtain ⟨hname, -, hwish, hbuy⟩ := ho old rfl
      refine ⟨hname, ?_, hwish, fun hhas => hbuy ?_⟩
      · rintro id ⟨⟩
        exact ⟨s, h, rfl, rfl⟩
      · simpa [ItemEntry.addStock, OperationSet.has_add] using hhas

theorem origin_wish {w : Handlers.WishListItem} {o : Option ItemEntry} (h : w ∈ src.wish)
    (ho : ∀ e, o = some e → src.Origin (wishName w).uuid e) (he : wishStep o w = some e) :
    src.Origin (wishName w).uuid e := by
  cases o with
  | none =>
      cases he
      refine ⟨⟨List.mem_append_right _ (List.mem_map_of_mem h), rfl⟩, nofun, ?_, nofun⟩
      rintro id ⟨⟩
      exact ⟨w, h, rfl, rfl⟩
  | some old =>
      cases he
      obtain ⟨hname, hstock, -, hbuy⟩ := ho old rfl
      refine ⟨hname, hstock, ?_, fun hhas => hbuy ?_⟩
      · rintro id ⟨⟩
        exact ⟨w, h, rfl, rfl⟩
      · simpa [ItemEntry.addWish, OperationSet.has_add] using hhas

theorem origin (uuid : String) : ∀ e, src.entryAt uuid = some e → src.Origin uuid e := by
  rw [entryAt]
  refine List.foldlRecOn (motive := fun o => ∀ e, o = some e → src.Origin uuid e) _ _
    (List.foldlRecOn (motive := fun o => ∀ e, o = some e → src.Origin uuid e) _ _
      (List.foldlRecOn (motive := fun o => ∀ e, o = some e → src.Origin uuid e) _ _ (fun _ h => nomatch h) ?_) ?_) ?_
  · intro o _ p hp e he
    obtain ⟨hp, huuid⟩ := List.mem_filter.mp hp
    cases he
    exact of_decide_eq_true huuid ▸ origin_candidate hp
  · intro o ho s hs e he
    obtain ⟨hmem, huuid⟩ := List.mem_filter.mp hs
    cases of_decide_eq_true huuid
    exact origin_stock hmem ho he
  · intro o ho w hw e he
    obtain ⟨hmem, huuid⟩ := List.mem_filter.mp hw
    cases of_decide_eq_true huuid
    exact origin_wish hmem ho he

theorem isSome_foldl {ρ : Type} {step : Option ItemEntry → ρ → Option ItemEntry}
    (hstep : ∀ o r, (step o r).isSome = true) {l : List ρ} {o : Option ItemEntry} (h : o.isSome = true ∨ l ≠ []) :
    (l.foldl step o).isSome = true := by
  induction l generalizing o with
  | nil => exact h.resolve_right fun hne => hne rfl
  | cons r l ih => exact ih (.inl (hstep o r))

/-- Every source has an entry under its uuid. -/
theorem entryAt_isSome {n : ItemName} (h : n ∈ src.names) : (src.entryAt n.uuid).isSome = true := by
  rw [entryAt]
  rcases List.mem_append.mp h with h | h
  · rcases List.mem_append.mp h with h | h
    · obtain ⟨p, hp, rfl⟩ := List.mem_map.mp h
      refine isSome_foldl (fun _ _ => rfl) (.inl (isSome_foldl (fun _ _ => rfl) (.inl
        (isSome_foldl (fun _ _ => rfl) (.inr ?_)))))
      exact List.ne_nil_of_mem (List.mem_filter.mpr ⟨hp, decide_eq_true rfl⟩)
    · obtain ⟨s, hs, rfl⟩ := List.mem_map.mp h
      refine isSome_foldl (fun _ _ => rfl) (.inl (isSome_foldl (fun _ _ => rfl) (.inr ?_)))
      exact List.ne_nil_of_mem (List.mem_filter.mpr ⟨hs, decide_eq_true rfl⟩)
  · obtain ⟨w, hw, rfl⟩ := List.mem_map.mp h
    refine isSome_foldl (fun _ _ => rfl) (.inr ?_)
    exact List.ne_nil_of_mem (List.mem_filter.mpr ⟨hw, decide_eq_true rfl⟩)

theorem mem_values : e ∈ src.merged.values ↔ ∃ uuid, src.entryAt uuid = some e := by
  rw [EntryMap.values, List.mem_map]
  constructor
  · rintro ⟨r, hr, rfl⟩
    refine ⟨r.1, ?_⟩
    rw [← get_merged, EntryMap.get, Table.lookup_of_mem hr]
    rfl
  · rintro ⟨uuid, h⟩
    rw [← get_merged, EntryMap.get] at h
    obtain ⟨r, hr, rfl⟩ := Option.map_eq_some_iff.mp h
    exact ⟨r, Table.mem_of_lookup hr, rfl⟩

/-- Entries of different uuids have different keys exactly when the keys of the values are distinct. -/
theorem nodup_values_iff : (src.merged.values.map fun e => e.name.key).Nodup ↔
    ∀ e e', (∃ uuid, src.entryAt uuid = some e) → (∃ uuid, src.entryAt uuid = some e') → e.name.key = e'.name.key →
      e.uuid = e'.uuid := by
  have hrow (r : String × ItemEntry) (hr : r ∈ src.merged.rows) : src.entryAt r.1 = some r.2 ∧ r.2.uuid = r.1 := by
    have hget : src.entryAt r.1 = some r.2 := by
      rw [← get_merged, EntryMap.get, Table.lookup_of_mem hr]
      rfl
    exact ⟨hget, (origin r.1 r.2 hget).name.2⟩
  have huuids : (src.merged.rows.map fun r => r.2.uuid).Nodup := by
    rw [List.map_congr_left fun r hr => (hrow r hr).2]
    exact src.merged.primaryKey
  rw [EntryMap.values, List.map_map]
  constructor
  · intro hnodup e e' he he' hkey
    obtain ⟨r, hr, rfl⟩ := List.mem_map.mp (mem_values.mpr he)
    obtain ⟨r', hr', rfl⟩ := List.mem_map.mp (mem_values.mpr he')
    rw [List.inj_on_of_nodup_map hnodup hr hr' hkey]
  · intro h
    refine (List.nodup_map_iff_inj_on (List.Nodup.of_map _ huuids)).mpr fun r hr r' hr' hkey => ?_
    refine List.inj_on_of_nodup_map huuids hr hr' (h r.2 r'.2 ⟨r.1, (hrow r hr).1⟩ ⟨r'.1, (hrow r' hr').1⟩ hkey)

/-- Of the rows with one key the tables have one at most, and so under a uuid that stands for the key. -/
theorem Agree.work (h : src.Agree) (hkeyed : src.Keyed) {uuid : String} (he : src.entryAt uuid = some e) :
    e.work = src.workOf e.name.key := by
  have hname := (origin uuid e he).name
  have hat {n : ItemName} (hn : n ∈ src.names) : n.uuid = uuid ↔ n.key = e.name.key := by
    rw [← h n hn e.name hname.1, ← hname.2]
    rfl
  have hcandidates : src.candidatesAt uuid = (src.candidates.find? fun p => decide (p.name.key = e.name.key)).toList := by
    rw [← Table.filter_eq_find?_toList hkeyed.candidates, candidatesAt]
    refine List.filter_congr fun p hp => decide_eq_decide.mpr (hat ?_)
    exact List.mem_append_left _ (List.mem_append_left _ (List.mem_map_of_mem hp))
  have hstock : src.stockAt uuid = (src.stock.find? fun s => decide ((stockName s).key = e.name.key)).toList := by
    rw [← Table.filter_eq_find?_toList hkeyed.stock, stockAt]
    refine List.filter_congr fun s hs => decide_eq_decide.mpr (hat ?_)
    exact List.mem_append_left _ (List.mem_append_right _ (List.mem_map_of_mem hs))
  have hwish : src.wishAt uuid = (src.wish.find? fun w => decide ((wishName w).key = e.name.key)).toList := by
    rw [← Table.filter_eq_find?_toList hkeyed.wish, wishAt]
    refine List.filter_congr fun w hw => decide_eq_decide.mpr (hat ?_)
    exact List.mem_append_right _ (List.mem_map_of_mem hw)
  rw [entryAt, hcandidates, hstock, hwish] at he
  exact work_of_options _ _ _ _ he

theorem Agree.onePerKey (h : src.Agree) (hkeyed : src.Keyed) : src.OnePerKey src.merged.values where
  distinct := by
    refine nodup_values_iff.mpr fun e e' ⟨uuid, he⟩ ⟨uuid', he'⟩ hkey => ?_
    exact (h _ (origin uuid e he).name.1 _ (origin uuid' e' he').name.1).mpr hkey
  complete := by
    intro n hn
    obtain ⟨e, he⟩ := Option.isSome_iff_exists.mp (entryAt_isSome hn)
    have hname := (origin n.uuid e he).name
    exact ⟨e, mem_values.mpr ⟨_, he⟩, (h _ hname.1 _ hn).mp hname.2⟩
  work := by
    intro e he
    obtain ⟨uuid, he⟩ := mem_values.mp he
    exact h.work hkeyed he

/-- The entry with the key of a source is the one under its uuid. -/
theorem OnePerKey.uuid_eq (h : src.OnePerKey src.merged.values) (hkeyed : src.Keyed) {n : ItemName}
    (hn : n ∈ src.names) (he : e ∈ src.merged.values) (hkey : e.name.key = n.key) : e.uuid = n.uuid := by
  obtain ⟨uuid, hat⟩ := mem_values.mp he
  have horigin := origin uuid e hat
  have hwork := h.work e he
  rw [hkey, workOf] at hwork
  rcases List.mem_append.mp hn with hn | hn
  · rcases List.mem_append.mp hn with hn | hn
    · obtain ⟨p, hp, rfl⟩ := List.mem_map.mp hn
      rw [Lib.Table.find?_of_nodup hkeyed.candidates hp] at hwork
      have hbuy : OperationSet.has e.operations "Buy" = true := by
        have hoperations := congrArg ItemEntry.Work.operations hwork
        simp only [ItemEntry.work, workFrom, Option.isSome_some, if_true] at hoperations
        rw [hoperations]
        rfl
      obtain ⟨q, hq, hname⟩ := horigin.buy hbuy
      have hsame : q = p := List.inj_on_of_nodup_map hkeyed.candidates hq hp (by rw [hname]; exact hkey)
      rw [ItemEntry.uuid, ← hname, hsame]
    · obtain ⟨s, hs, rfl⟩ := List.mem_map.mp hn
      rw [Lib.Table.find?_of_nodup hkeyed.stock hs] at hwork
      obtain ⟨t, ht, huuid, hid⟩ := horigin.stock s.id (congrArg ItemEntry.Work.stockId hwork)
      cases List.inj_on_of_nodup_map hkeyed.stockIds ht hs hid
      exact horigin.name.2.trans huuid.symm
  · obtain ⟨w, hw, rfl⟩ := List.mem_map.mp hn
    rw [Lib.Table.find?_of_nodup hkeyed.wish hw] at hwork
    obtain ⟨v, hv, huuid, hid⟩ := horigin.wish w.id (congrArg ItemEntry.Work.wishListId hwork)
    cases List.inj_on_of_nodup_map hkeyed.wishIds hv hw hid
    exact horigin.name.2.trans huuid.symm

theorem OnePerKey.agree (h : src.OnePerKey src.merged.values) (hkeyed : src.Keyed) : src.Agree := by
  intro a ha b hb
  obtain ⟨e, he, hkey⟩ := h.complete a ha
  obtain ⟨e', he', hkey'⟩ := h.complete b hb
  have huuid := h.uuid_eq hkeyed ha he hkey
  have huuid' := h.uuid_eq hkeyed hb he' hkey'
  obtain ⟨u, hat⟩ := mem_values.mp he
  obtain ⟨u', hat'⟩ := mem_values.mp he'
  constructor
  · intro hab
    have hu : u = u' := by
      rw [← (origin u e hat).name.2, ← (origin u' e' hat').name.2, huuid, huuid', hab]
    rw [← hu, hat] at hat'
    cases hat'
    exact hkey.symm.trans hkey'
  · intro hab
    rw [← huuid, ← huuid']
    exact nodup_values_iff.mp h.distinct e e' ⟨u, hat⟩ ⟨u', hat'⟩ (hkey.trans (hab.trans hkey'.symm))

theorem onePerKey_iff (hkeyed : src.Keyed) : src.OnePerKey src.merged.values ↔ src.Agree :=
  ⟨fun h => h.agree hkeyed, fun h => h.onePerKey hkeyed⟩

end Sources

end Merging

/-! ### The cycle's entries -/

namespace Collected

variable {F : Type} (num : CandidateFloats F) (c : Collected F)

/-- The sources of a cycle over these tables. -/
def sources (stock : Table Handlers.StockItem.id) (wish : Table Handlers.WishListItem.id) : Sources F where
  candidates := c.candidates num
  stock := c.active .sell stockName stock.rows
  wish := c.active .wishList wishName wish.rows
  buyQuantity := c.wtb.buyQuantity

variable {num c} {stock : Table Handlers.StockItem.id} {wish : Table Handlers.WishListItem.id}

theorem active_sublist {ρ : Type} (mode : TradeMode) (name : ρ → ItemName) (rows : List ρ) :
    (c.active mode name rows).Sublist rows := by
  rw [active]
  split
  · exact List.filter_sublist
  · exact List.nil_sublist _

theorem candidates_keyed (h : (c.prices.all.map fun p => p.name.key).Nodup) :
    ((c.candidates num).map fun p => p.name.key).Nodup := by
  rw [candidates]
  split
  · have hpassing : ((c.prices.all.filter (passes num c.wtb c.prices)).map fun p => p.name.key).Nodup :=
      (List.filter_sublist.map _).nodup h
    have hsorted := ((List.perm_insertionSort (fun a b => ranksBefore num c.wtb.candidateRanking a b = true)
      (c.prices.all.filter (passes num c.wtb c.prices))).map fun p => p.name.key).nodup_iff.mpr hpassing
    refine (List.filter_sublist.map _).nodup ?_
    rw [getInterestingItems, topCandidates]
    split
    · exact hsorted
    · exact ((List.take_sublist _ _).map _).nodup hsorted
  · exact List.nodup_nil

/-- The rows of a table, each once, have these keys once. -/
theorem sources_keyed (hprices : (c.prices.all.map fun p => p.name.key).Nodup)
    (hstock : (stock.rows.map fun s => (stockName s).key).Nodup)
    (hwish : (wish.rows.map fun w => (wishName w).key).Nodup) : (c.sources num stock wish).Keyed where
  candidates := candidates_keyed hprices
  stock := ((active_sublist _ _ _).map _).nodup hstock
  wish := ((active_sublist _ _ _).map _).nodup hwish
  stockIds := ((active_sublist _ _ _).map _).nodup stock.primaryKey
  wishIds := ((active_sublist _ _ _).map _).nodup wish.primaryKey

theorem rowsFor_active {ρ : Type} {id : ρ → Int} (mode : TradeMode) (name : ρ → ItemName) (t : Table id) :
    ∃ rows, rowsFor c mode (.ok t) = .ok rows ∧ c.active mode name rows = c.active mode name t.rows := by
  by_cases hmode : c.settings.hasTradeMode mode = true
  · exact ⟨t.rows, if_pos hmode, rfl⟩
  · refine ⟨[], if_neg hmode, ?_⟩
    rw [active, active, if_neg hmode, if_neg hmode]

/-- Without debugging entries, what is collected is the merge of the sources. -/
theorem collect_eq (hdebug : c.debugEntries = []) (hstock : c.stockItems = .ok stock) (hwish : c.wishItems = .ok wish) :
    collectInterestingItems num c = .ok (c.sources num stock wish).merged.values := by
  obtain ⟨sold, hsold, hactive⟩ := rowsFor_active (c := c) .sell stockName stock
  obtain ⟨wished, hwished, hactive'⟩ := rowsFor_active (c := c) .wishList wishName wish
  rw [collectInterestingItems, if_neg (not_not.mpr hdebug), hstock, hwish, hsold, hwished]
  simp only [bind, Except.bind, pure, Except.pure, hactive, hactive']
  rfl

end Collected

def CandidateFloats.rat : CandidateFloats Rat where
  ofInt n := n
  add := (· + ·)
  lt a b := decide (a < b)
  asI64 := Rat.floor
  mul := (· * ·)
  min := Min.min
  totalLe a b := decide (a ≤ b)

/-- A lens that is worth buying. -/
def PriceRow.lens : PriceRow Rat where
  movingAvg := none
  avgPrice := 10
  warm := true
  guarded := true
  uuid := "lens"
  wfmUrl := "lens"
  wfmId := "id-lens"
  subType := none
  volume := 20
  profit := 5
  tradingTax := 0
  weekPriceShift := 0
  maxRank := none

/-- A row of the stock, of which two are owned. -/
def lensInStock (subType : Option SubType) : Handlers.StockItem where
  id := 7
  wfmId := "id-lens"
  wfmUrl := "lens"
  itemName := "Lens"
  itemUniqueName := "/Lens"
  subType := subType
  bought := 4
  listPrice := none
  owned := 2
  isHidden := false
  status := .pending
  priceHistory := []
  updatedAt := 0
  createdAt := 0
  properties := none

def lensStock (subType : Option SubType) : Table Handlers.StockItem.id := ⟨[lensInStock subType], List.nodup_singleton _⟩

/-- All modes, nothing blacklisted and every filter off; a lens to buy and a lens in stock. -/
def Collected.lens (subType : Option SubType) : Collected Rat where
  settings :=
    { autoDelete := false
      deleteConflictingOrders := false
      tradeModes := [.buy, .sell, .wishList]
      general := {}
      wtb := ⟨-1, -1, -1, -1, -1, -1⟩
      wts := ⟨-1, -1, -1, -1⟩ }
  wtb :=
    { toItemWtbSettings := ⟨-1, -1, -1, -1, -1, -1⟩
      volumeThreshold := -1
      tradingTaxCap := -1
      priceShiftThreshold := -1
      buyQuantity := 3
      maxBuyCandidates := -1
      candidateRanking := .expectedProfit }
  prices := ⟨[.lens], fun _ _ => false⟩
  stockItems := .ok (lensStock subType)
  wishItems := .ok .empty
  debugEntries := []
  parseEntries _ := .ok []

namespace Collected

variable {F : Type} {num : CandidateFloats F} {c : Collected F}
variable {stock : Table Handlers.StockItem.id} {wish : Table Handlers.WishListItem.id}

/-- The entries are one for each key, with the work of all its sources, exactly when the sources that are merged
have equal uuids where they have equal keys. -/
theorem collect_onePerKey_iff (hdebug : c.debugEntries = []) (hstock : c.stockItems = .ok stock)
    (hwish : c.wishItems = .ok wish) (hprices : (c.prices.all.map fun p => p.name.key).Nodup)
    (hstockKeys : (stock.rows.map fun s => (stockName s).key).Nodup)
    (hwishKeys : (wish.rows.map fun w => (wishName w).key).Nodup) :
    ∃ entries, collectInterestingItems num c = .ok entries ∧
      ((c.sources num stock wish).OnePerKey entries ↔ (c.sources num stock wish).Agree) :=
  ⟨_, collect_eq hdebug hstock hwish, Sources.onePerKey_iff (sources_keyed hprices hstockKeys hwishKeys)⟩

theorem collect_onePerKey_iff_lens :
    ∃ entries, collectInterestingItems .rat (lens none) = .ok entries ∧
      ((lens none).sources .rat (lensStock none) .empty).OnePerKey entries := by
  have hagree : ((lens none).sources .rat (lensStock none) .empty).Agree := by
    rw [Sources.Agree]
    decide +kernel
  obtain ⟨entries, hentries, hiff⟩ := @collect_onePerKey_iff Rat .rat (lens none) (lensStock none) .empty rfl rfl rfl
    (List.nodup_singleton _) (List.nodup_singleton _) List.nodup_nil
  exact ⟨entries, hentries, hiff.mpr hagree⟩

/-- A stock row with a sub-type that sets no field: the lens is bought in one entry and sold in another. -/
theorem collect_two_entries :
    ((lens (some ⟨none, none, none, none, none⟩)).prices.all.map fun p => p.name.key).Nodup ∧
      ((lensStock (some ⟨none, none, none, none, none⟩)).rows.map fun s => (stockName s).key).Nodup ∧
      ∃ buy sell, collectInterestingItems .rat (lens (some ⟨none, none, none, none, none⟩)) = .ok [buy, sell] ∧
        buy.name.key = sell.name.key ∧ buy.operations = ["Buy"] ∧ sell.operations = ["Sell"] ∧
        ¬ ((lens (some ⟨none, none, none, none, none⟩)).sources .rat
          (lensStock (some ⟨none, none, none, none, none⟩)) .empty).OnePerKey [buy, sell] := by
  refine ⟨List.nodup_singleton _, List.nodup_singleton _, .ofPrice 3 .lens,
    .ofStock (lensInStock (some ⟨none, none, none, none, none⟩)), by decide +kernel, rfl, rfl, rfl, fun h => ?_⟩
  exact absurd h.distinct (by decide +kernel)

end Collected

end Quantframe.Trader
