import Quantframe.Handlers.Plans
import Quantframe.Trader.Airtight
import Quantframe.Trader.Bookings
import Quantframe.Trader.Course

/-!
# Counts that a cycle keeps

A cycle that writes a row back sets its count to the one it read. Where no booking has changed the count
meanwhile, that changes nothing, and the bookings end where they would have ended alone.
-/

namespace Quantframe.Trader

open Lib Lib.Effect
open Handlers (TableName Row Statement Services Op Failure rowId rowSubType)
open Trades (Error SubType DateTime)

/-! ### Rows keep their names -/

section Identity

variable {w w' : Handlers.World} {t : TableName} {id : Int} {subType : Option SubType}

/-- No row has an id that `sequences` does not know. -/
def Sequenced (w : Handlers.World) : Prop := ∀ t, ∀ row ∈ (w.tables t).rows, rowId t row ≤ w.sequences t

/-- The row with this id, if there is one, has this sub-type, and no other row will have this id. -/
structure Identified (t : TableName) (id : Int) (subType : Option SubType) (w : Handlers.World) : Prop where
  used : id ≤ w.sequences t
  subType : ∀ row ∈ (w.tables t).rows, rowId t row = id → rowSubType t row = subType

/-- Rows keep their sub-types, and new ones have new ids. -/
structure Later (w w' : Handlers.World) : Prop where
  sequences : ∀ t, w.sequences t ≤ w'.sequences t
  rows : ∀ t, ∀ row' ∈ (w'.tables t).rows,
    (∃ row ∈ (w.tables t).rows, rowId t row' = rowId t row ∧ rowSubType t row' = rowSubType t row) ∨
      (w.sequences t < rowId t row' ∧ rowId t row' ≤ w'.sequences t)

theorem Later.refl (w : Handlers.World) : Later w w :=
  ⟨fun _ => le_rfl, fun _ row hrow => .inl ⟨row, hrow, rfl, rfl⟩⟩

theorem Sequenced.later (h : Sequenced w) (hlater : Later w w') : Sequenced w' := by
  intro t row' hrow'
  rcases hlater.rows t row' hrow' with ⟨row, hrow, hid, -⟩ | ⟨-, hid⟩
  · rw [hid]
    exact (h t row hrow).trans (hlater.sequences t)
  · exact hid

theorem Identified.later (h : Identified t id subType w) (hlater : Later w w') : Identified t id subType w' where
  used := h.used.trans (hlater.sequences t)
  subType row' hrow' hid := by
    rcases hlater.rows t row' hrow' with ⟨row, hrow, hsame, hsub⟩ | ⟨hnew, -⟩
    · rw [hsub]
      exact h.subType row hrow (hsame.symm.trans hid)
    · exact absurd (hid ▸ hnew) (not_lt_of_ge h.used)

/-- One table of the same rows, some of them changed or gone. -/
theorem later_setTable {table : Table (rowId t)}
    (h : ∀ row' ∈ table.rows,
      ∃ row ∈ (w.tables t).rows, rowId t row' = rowId t row ∧ rowSubType t row' = rowSubType t row) :
    Later w (w.setTable t table) where
  sequences _ := le_rfl
  rows t' row' hrow' := by
    by_cases ht : t' = t
    · subst ht
      rw [Handlers.World.setTable_self] at hrow'
      exact .inl (h row' hrow')
    · rw [Handlers.World.setTable_of_ne w ht] at hrow'
      exact .inl ⟨row', hrow', rfl, rfl⟩

theorem later_insert (w : Handlers.World) (t : TableName) (row : Row t) (at_ : DateTime) :
    Later w (w.insert t row at_) := by
  have hnext : w.sequences t < w.nextId t :=
    Int.lt_add_one_of_le (Handlers.le_foldl_max _ (w.sequences t)).1
  refine ⟨fun t' => ?_, fun t' row' hrow' => ?_⟩
  · by_cases ht : t' = t
    · subst ht
      simpa only [Handlers.World.insert, Function.update_self] using hnext.le
    · simp only [Handlers.World.insert, Function.update_of_ne ht, le_refl]
  · by_cases ht : t' = t
    · subst ht
      have hrow' : row' ∈ ((w.tables t').insertOrReplace (Handlers.inserted t' row (w.nextId t') at_)).rows := by
        rw [← Handlers.World.setTable_self w t' (Table.insertOrReplace _ _)]
        exact hrow'
      rw [Table.rows_insertOrReplace] at hrow'
      rcases List.mem_append.mp hrow' with hold | hnew
      · exact .inl ⟨row', List.mem_of_mem_filter hold, rfl, rfl⟩
      · cases List.mem_singleton.mp hnew
        rw [Handlers.rowId_inserted]
        exact .inr ⟨hnext, by simp only [Handlers.World.insert, Function.update_self, le_refl]⟩
    · have hrow' : row' ∈ (w.tables t').rows := by
        rw [← Handlers.World.setTable_of_ne w ht (Table.insertOrReplace (w.tables t)
          (Handlers.inserted t row (w.nextId t) at_))]
        exact hrow'
      exact .inl ⟨row', hrow', rfl, rfl⟩

theorem applyTo_subType (t : TableName) (u : Handlers.Columns t) (now : DateTime) (row : Row t) :
    rowSubType t (Handlers.applyTo t u now row) = rowSubType t row := by
  cases t with
  | stockItem => rfl
  | wishList => rfl
  | transaction => exact u.elim

theorem later_run (now : DateTime) (w : Handlers.World) (t : TableName) (s : Statement t) :
    Later w (s.run now w t).2 := by
  cases s with
  | findByUrlName url => exact .refl w
  | findById caller id => exact .refl w
  | insert row createdAt => exact later_insert w t row _
  | update id columns =>
      cases hfound : (w.tables t).lookup id with
      | none =>
          simp only [Statement.run, hfound]
          exact .refl w
      | some found =>
          simp only [Statement.run, hfound]
          refine later_setTable fun row' hrow' => ?_
          rw [Table.rows_update] at hrow'
          obtain ⟨row, hrow, rfl⟩ := List.mem_map.mp hrow'
          refine ⟨row, hrow, ?_⟩
          split
          · exact ⟨Handlers.rowId_applyTo .., applyTo_subType ..⟩
          · exact ⟨rfl, rfl⟩
  | delete id =>
      refine later_setTable fun row' hrow' => ⟨row', ?_, rfl, rfl⟩
      rw [Table.rows_delete] at hrow'
      exact List.mem_of_mem_filter hrow'

theorem later_answer (sv : Services) (o : Op) (w : Handlers.World) : Later w (sv.answer o w).2 := by
  rw [Services.answer]
  cases sv.fails o with
  | some failure => exact .refl w
  | none =>
      cases o with
      | statement t s => exact later_run sv.now w t s
      | closeOrder id quantity => exact ⟨(Later.refl w).sequences, (Later.refl w).rows⟩
      | deleteOrder id => exact ⟨(Later.refl w).sequences, (Later.refl w).rows⟩
      | updateOrder id args => exact ⟨(Later.refl w).sequences, (Later.refl w).rows⟩
      | cacheClient => exact .refl w
      | appState => exact .refl w
      | countTransactions filter => exact .refl w
      | fetchTransactions filter page limit => exact .refl w

/-- A row that has been read says who has its id. -/
theorem Sequenced.identified (h : Sequenced w) {row : Row t} (hrow : (w.tables t).lookup id = some row) :
    Identified t id (rowSubType t row) w where
  used := Table.key_of_lookup hrow ▸ h t row (Table.mem_of_lookup hrow)
  subType row' hrow' hid := by
    have hsame := Table.lookup_of_mem hrow'
    rw [hid, hrow] at hsame
    rw [Option.some.inj hsame]

end Identity

/-! ### Write-backs that change no count -/

/-- The row has the count that it was read with, or is gone. -/
def WriteBack.Timely (b : WriteBack) : Prop := ∀ count, b.stored = some count → count = b.held

instance (b : WriteBack) : Decidable b.Timely :=
  decidable_of_iff (b.stored.all fun count => decide (count = b.held)) <| by
    simp only [WriteBack.Timely, Option.all_eq_true, decide_eq_true_eq]

/-- What a row with the copy's count holds, it still holds once the copy is set. -/
def Copy.Restores {t : TableName} (copy : Copy t) (w : Handlers.World) : Prop :=
  ∀ row ∈ (w.tables t).rows, rowId t row = copy.id → countOf t row = copy.count →
    ∀ history now found, holding t (copy.set history now found row) = holding t row

section Kept

variable {X : Type} (db : Database X)

theorem StockItem.restores {item : StockItem} {w : Handlers.World} (h : Identified .stockItem item.id item.subType w) :
    (item.toUpdate db).Restores w := by
  intro (row : Handlers.StockItem) hrow hid hcount history now found
  have hsub : row.subType = item.subType := h.subType row hrow hid
  have hcount : (⟨row.owned, row.bought⟩ : Count) = ⟨item.owned, item.bought⟩ := hcount
  show (⟨row.id, row.wfmUrl, item.subType, ⟨item.owned, item.bought⟩⟩ : Holding) = ⟨row.id, row.wfmUrl, row.subType, _⟩
  rw [← hcount, hsub]
  rfl

theorem WishListItem.restores (item : WishListItem) (w : Handlers.World) : (item.toUpdate db).Restores w := by
  intro (row : Handlers.WishListItem) _ _ hcount history now found
  have hcount : (⟨row.quantity, 0⟩ : Count) = ⟨item.quantity, 0⟩ := hcount
  show (⟨row.id, row.wfmUrl, row.subType, ⟨item.quantity, 0⟩⟩ : Holding) = ⟨row.id, row.wfmUrl, row.subType, _⟩
  rw [← hcount]
  rfl

/-- As long as every write-back was timely, the tables hold what the bookings alone have made of them. -/
structure Tended (start : Line Services Op Handlers.Reply × Handlers.World) (s : Shop X) : Prop where
  sequenced : Sequenced s.store
  kept : (∀ b ∈ s.own.writeBacks, b.Timely) → ∃ n,
    Line.InStep Alike s.line ((Line.advance Services.answer)^[n] start).1 ∧
      SameHoldings s.store ((Line.advance Services.answer)^[n] start).2

/-- The same, with something that the rows keep. -/
structure Attended (start : Line Services Op Handlers.Reply × Handlers.World) (I : Handlers.World → Prop) (s : Shop X) :
    Prop extends Tended start s where
  rows : I s.store

variable {start : Line Services Op Handlers.Reply × Handlers.World} {I : Handlers.World → Prop} {s : Shop X}
  {t : TableName} {α : Type}

theorem Tended.asks (h : Tended start s) (ext : X) : Tended start { s with own := { s.own with ext := ext } } :=
  ⟨h.sequenced, h.kept⟩

theorem Tended.giveWay (h : Tended start s) : Tended start (s.giveWay Services.answer) where
  sequenced := Shared.giveWay_keeps _ (fun sv o w hw => hw.later (later_answer sv o w)) h.sequenced
  kept htimely := by
    obtain ⟨n, hline, hstore⟩ := h.kept htimely
    refine ⟨s.turns.headD 0 + n, ?_⟩
    rw [Function.iterate_add_apply]
    exact Line.iterate_same answer_same _ ⟨hline, hstore⟩

theorem Attended.asks (h : Attended start I s) (ext : X) :
    Attended start I { s with own := { s.own with ext := ext } } := ⟨h.toTended.asks ext, h.rows⟩

theorem Attended.giveWay (hI : ∀ w w', I w → Later w w' → I w') (h : Attended start I s) :
    Attended start I (s.giveWay Services.answer) :=
  ⟨h.toTended.giveWay, Shared.giveWay_keeps _ (fun sv o w hw => hI w _ hw (later_answer sv o w)) h.rows⟩

theorem request_attended (hI : ∀ w w', I w → Later w w' → I w') (q : X → α × X) (h : Attended start I s) :
    Attended start I (Shop.request q s).2 := (h.giveWay hI).asks _

/-- A statement keeps what its run keeps. -/
theorem statement_keeps {Q : Shop X → Prop} (hI : ∀ w w', I w → Later w w' → I w')
    {failed : Failure → Error} {run : Shop X → Except Error α × Shop X}
    (hfailure : ∀ s, Attended start I s → Q s) (hrun : ∀ s, Attended start I s → Q (run s).2)
    (h : Attended start I s) : Q (Shop.statement db failed run s).2 := by
  rw [Shop.statement, Shared.inTurn]
  split
  next failure ext _ => exact hfailure _ ((h.giveWay hI).asks ext)
  next ext _ => exact hrun _ ((h.giveWay hI).asks ext)

theorem findById_attended (hI : ∀ w w', I w → Later w w' → I w') (failed : Failure → Error) (id : Int)
    (h : Attended start I s) : Attended start I (Shop.findById db t failed id s).2 :=
  statement_keeps db hI (fun _ hs => hs) (fun _ hs => hs) h

/-- What a look finds is in the table then. -/
theorem findById_found (failed : Failure → Error) (id : Int) {found : Option (Row t)}
    (h : (Shop.findById db t failed id s).1 = .ok found) :
    ((Shop.findById db t failed id s).2.store.tables t).lookup id = found := by
  rw [Shop.findById, Shop.statement, Shared.inTurn] at h ⊢
  split at h
  · cases h
  · exact Except.ok.inj h

theorem Tended.wroteBack (h : Tended start s) (t : TableName) (held : Count) (stored : Option (Row t)) :
    Tended start (s.wroteBack t held stored) :=
  ⟨h.sequenced, fun htimely => h.kept fun b hb => htimely b (List.mem_append_left _ hb)⟩

/-- Setting a copy changes no holding exactly when the row has the copy's count. -/
theorem holdings_set_iff {w : Handlers.World} {copy : Copy t} (hrestores : copy.Restores w) {row : Row t}
    (hrow : (w.tables t).lookup copy.id = some row) (history : List Handlers.PriceHistory) (now : DateTime)
    (found : Row t) :
    SameHoldings (w.setTable t ((w.tables t).update copy.id (copy.set history now found)
      (copy.rowId_set history now found))) w ↔ countOf t row = copy.count := by
  constructor
  · intro hsame
    have hset := hsame.lookup t copy.id
    rw [Handlers.World.setTable_self, Table.lookup_update, if_pos rfl, hrow, Option.map_some, Option.map_some,
      Option.map_some] at hset
    have hcount := congrArg Holding.count (Option.some.inj hset)
    exact hcount.symm.trans (copy.countOf_set history now found row)
  · intro hcount
    refine ⟨fun t' => ?_, rfl⟩
    rw [holdings_setTable]
    split
    next ht =>
      subst ht
      rw [Table.rows_update, List.map_map]
      refine List.map_congr_left fun r hr => ?_
      rw [Function.comp_apply]
      split
      next hid =>
        have hsame := Table.lookup_of_mem hr
        rw [hid, hrow] at hsame
        cases hsame
        exact hrestores row hr hid hcount history now found
      next => rfl
    next => rfl

theorem sequenced_set {w : Handlers.World} (h : Sequenced w) (id : Int) {f : Row t → Row t}
    (hf : ∀ r, rowId t (f r) = rowId t r) : Sequenced (w.setTable t ((w.tables t).update id f hf)) := by
  intro t' row' hrow'
  by_cases ht : t' = t
  · subst ht
    rw [Handlers.World.setTable_self, Table.rows_update] at hrow'
    obtain ⟨row, hrow, rfl⟩ := List.mem_map.mp hrow'
    split
    · rw [hf]
      exact h t' row hrow
    · exact h t' row hrow
  · rw [Handlers.World.setTable_of_ne w ht] at hrow'
    exact h t' row' hrow'

theorem update_tended (hI : ∀ w w', I w → Later w w' → I w') {copy : Copy t}
    (hrestores : ∀ w, I w → copy.Restores w) (component label : String) (found : Row t) (h : Attended start I s) :
    Tended start (Shop.update db t component label copy found s).2 := by
  refine statement_keeps db hI (fun _ hs => hs.toTended) (fun s hs => ?_) h
  cases hrow : (s.store.tables t).lookup copy.id with
  | none => exact hs.toTended.wroteBack t copy.count none
  | some row =>
      refine ⟨sequenced_set hs.sequenced _ _, fun htimely => ?_⟩
      have hwritten : WriteBack.Timely ⟨t, copy.count, some (countOf t row)⟩ :=
        htimely _ (List.mem_append_right _ List.mem_cons_self)
      obtain ⟨n, hline, hstore⟩ := hs.kept fun b hb => htimely b (List.mem_append_left _ hb)
      refine ⟨n, hline, SameHoldings.trans ?_ hstore⟩
      exact (holdings_set_iff (hrestores s.store hs.rows) hrow _ _ _).mpr (hwritten _ rfl)

theorem updateById_tended (hI : ∀ w w', I w → Later w w' → I w') {copy : Copy t}
    (hrestores : ∀ w, I w → copy.Restores w) (component label : String) (h : Attended start I s) :
    Tended start (Shop.updateById db t component label copy s).2 := by
  have hfind := findById_attended (t := t) db hI
    (Handlers.fromDb component ("Failed to find " ++ label ++ " by ID")) copy.id h
  rw [Shop.updateById]
  split
  next _ s' hs =>
    rw [hs] at hfind
    exact hfind.toTended
  next s' hs =>
    rw [hs] at hfind
    exact hfind.toTended.wroteBack t copy.count none
  next found s' hs =>
    rw [hs] at hfind
    exact update_tended db hI hrestores component label found hfind

end Kept

/-! ### The workflows that write a row back -/

/-- One workflow of an entry that writes a row back. -/
inductive Visit (F : Type) where
  | selling (ctx : TradeContext F) (itemInfo : CacheTradableItem) (entry : ItemEntry) (price : ItemPriceInfo F)
      (live : LiveOrders) (route : Route) (slots : Slots)
  | wishList (ctx : TradeContext F) (itemInfo : CacheTradableItem) (entry : ItemEntry) (price : ItemPriceInfo F)
      (route : Route) (slots : Slots)

section Visits

variable {X F : Type} (num : PriceFloats F) (out : Outside X) (db : Database X)

def Visit.progress : Visit F → TraderM (Shop X) Unit
  | .selling ctx itemInfo entry price live route slots =>
      progressSelling num (out.inShop db) ctx itemInfo entry price live route slots
  | .wishList ctx itemInfo entry price route slots =>
      progressWishList num (out.inShop db) ctx itemInfo entry price route slots

/-- One after the other; a failure ends the cycle, and the next one goes on. -/
def progressVisits (visits : List (Visit F)) : TraderM (Shop X) Unit :=
  each visits fun v => do
    let _ ← attempt (v.progress num out db)

variable {num out db} {start : Line Services Op Handlers.Reply × Handlers.World} {I : Handlers.World → Prop}
  {w : World (Shop X)}

theorem inShop_keeping (hI : ∀ w w', I w → Later w w' → I w') :
    (out.inShop db).toOrdersOutside.Keeping (Attended start I) where
  create params _ h := request_attended hI (out.create params) h
  update id params _ h := request_attended hI (out.update id params) h
  delete id _ h := request_attended hI (out.delete id) h
  myOrders _ h := request_attended hI out.myOrders h
  uuid _ h := request_attended hI out.uuid h

theorem Tended.attended {s : Shop X} (h : Tended start s) : Attended start (fun _ => True) s := ⟨h, trivial⟩

theorem getStockItem_tended (entry : ItemEntry) (h : Tended start w.ext) :
    (getStockItem (out.inShop db) entry).wp (fun r t => Tended start t.ext ∧ ∀ item, r = .ok (some item) →
      Identified .stockItem item.id item.subType t.ext.store) w := by
  rw [getStockItem]
  cases entry.stockId with
  | none => exact ⟨h, fun _ hr => by cases hr⟩
  | some id =>
      let failed := Handlers.fromDb "StockItemQuery:FindById" "Failed to find Stock Item by ID"
      have hfind := findById_attended (t := .stockItem) db (fun _ _ _ _ => trivial) failed id h.attended
      refine demand_ext (q := (out.inShop db).stockItem id) (Q := fun r s => Tended start s ∧
        ∀ item, r = .ok (some item) → Identified .stockItem item.id item.subType s.store)
        ⟨hfind.toTended, fun item hitem => ?_⟩
      have hitem : Except.map (Option.map (StockItem.ofRow db)) (Shop.findById db .stockItem failed id w.ext).1 =
        .ok (some item) := hitem
      cases hfound : (Shop.findById db .stockItem failed id w.ext).1 with
      | error e =>
          rw [hfound] at hitem
          cases hitem
      | ok found =>
          rw [hfound] at hitem
          obtain ⟨row, rfl, rfl⟩ := Option.map_eq_some_iff.mp (Except.ok.inj hitem)
          have hlookup := findById_found db failed id hfound
          have hidentified := hfind.sequenced.identified hlookup
          have hid : row.id = id := Table.key_of_lookup hlookup
          show Identified .stockItem row.id row.subType _
          rw [hid]
          exact hidentified

theorem finalizeStockItem_tended {item : StockItem}
    (h : Attended start (Identified .stockItem item.id item.subType) w.ext) :
    (finalizeStockItem (out.inShop db) item).wp (fun _ t => Tended start t.ext) w := by
  rw [finalizeStockItem, wp_ite]
  refine ⟨fun _ => ?_, fun _ => h.toTended⟩
  exact demand_ext (Q := fun _ s => Tended start s)
    (updateById_tended db (fun _ _ => Identified.later) (fun _ => StockItem.restores db) _ _ h)

theorem progressSelling_tended (ctx : TradeContext F) (itemInfo : CacheTradableItem) (entry : ItemEntry)
    (price : ItemPriceInfo F) (live : LiveOrders) (route : Route) (slots : Slots) :
    Keeps (fun w => Tended start w.ext)
      (progressSelling num (out.inShop db) ctx itemInfo entry price live route slots) := by
  intro w h
  rw [progressSelling, wp_ite]
  refine ⟨fun _ => h, fun _ => ?_⟩
  rw [wp_bind]
  refine wp_mono (getStockItem_tended entry h) fun r t ht => ?_
  obtain ⟨ht, hitem⟩ := ht
  cases r with
  | error e => exact ht
  | ok found =>
      cases found with
      | none => exact ht
      | some item =>
          have hout : (out.inShop db).toOrdersOutside.Keeping
              (Attended start (Identified .stockItem item.id item.subType)) :=
            inShop_keeping fun w w' hidentified hlater => hidentified.later hlater
          have hread : Attended start (Identified .stockItem item.id item.subType) t.ext := ⟨ht, hitem item rfl⟩
          have hinfo := (getOrderInfo_steady entry .sell route).keeps t hread
          refine wp_seq (Q := fun _ u => Tended start u.ext) hinfo (fun info u hu => ?_) fun _ u hu => hu.toTended
          rw [wp_ite]
          refine ⟨fun _ => hu.toTended, fun _ => ?_⟩
          have hfinal : ∀ v : World (Shop X), Attended start (Identified .stockItem item.id item.subType) v.ext →
              (finalizeStockItem (out.inShop db) (sellOffer num ctx entry price live info item).stockItem).wp
                (fun _ t => Tended start t.ext) v := fun _ hv => finalizeStockItem_tended hv
          exact wp_seq (Q := fun _ v => Tended start v.ext) ((progressOrder_steady hout _ _ _ _ _ _ _ _).keeps u hu)
            (fun _ v hv => hfinal v hv) fun _ v hv => hv.toTended

theorem progressWishList_tended (ctx : TradeContext F) (itemInfo : CacheTradableItem) (entry : ItemEntry)
    (price : ItemPriceInfo F) (route : Route) (slots : Slots) :
    Keeps (fun w => Tended start w.ext)
      (progressWishList num (out.inShop db) ctx itemInfo entry price route slots) := by
  have hout : (out.inShop db).toOrdersOutside.Keeping (Attended start fun _ => True) :=
    inShop_keeping fun _ _ _ _ => trivial
  have hread : Keeps (fun w => Attended start (fun _ => True) w.ext) (getWishListItem (out.inShop db) entry) := by
    intro w h
    rw [getWishListItem]
    cases entry.wishListId with
    | none => exact h
    | some id =>
        exact demand_ext (Q := fun _ s => Attended start (fun _ => True) s)
          (findById_attended (t := .wishList) db (fun _ _ _ _ => trivial) _ id h)
  have hall : Keeps (fun w => Attended start (fun _ => True) w.ext)
      (progressWishList num (out.inShop db) ctx itemInfo entry price route slots) := by
    refine .ite (fun _ => .pure ()) fun _ => hread.bind fun found => ?_
    cases found with
    | none => exact .pure ()
    | some item =>
        refine (getOrderInfo_steady entry .buy route).keeps.bind fun info => .ite (fun _ => .pure ()) fun _ => ?_
        refine (progressOrder_steady hout _ _ _ _ _ _ _ _).keeps.bind fun _ => .ite (fun _ => ?_) fun _ => .pure ()
        exact fun w h => demand_ext (Q := fun _ s => Attended start (fun _ => True) s)
          (updateById_tended db (fun _ _ _ _ => trivial) (fun w _ => WishListItem.restores db _ w) _ _ h).attended
  exact fun w h => wp_mono (hall w h.attended) fun _ _ ht => ht.toTended

theorem progressVisits_tended (visits : List (Visit F)) :
    Keeps (fun w => Tended start w.ext) (progressVisits num out db visits) := by
  refine .each fun v _ => Keeps.bind (.attempt ?_) fun _ => .pure ()
  cases v with
  | selling ctx itemInfo entry price live route slots => exact progressSelling_tended _ _ _ _ _ _ _
  | wishList ctx itemInfo entry price route slots => exact progressWishList_tended _ _ _ _ _ _

/-- The bookings with their circumstances, as the line of a shop. -/
def bookingLine (bookings : List (Services × Booking)) : Line Services Op Handlers.Reply :=
  bookings.map fun b => (b.1, b.2.job)

/-- Sales and purchases are booked while entries are sold and wished for. Where every row that is written back
still has the count it was read with, or is gone, the counts end as the bookings alone would have left them. -/
theorem counts_kept (num : PriceFloats F) (out : Outside X) (db : Database X) (visits : List (Visit F))
    (bookings : List (Services × Booking)) (w : World (Shop X)) (hline : w.ext.line = bookingLine bookings)
    (hsequenced : Sequenced w.ext.store)
    (htimely : ∀ b ∈ ((progressVisits num out db visits).exec w).2.ext.own.writeBacks, b.Timely) (t : TableName) :
    let after := ((progressVisits num out db visits).exec w).2.ext
    holdings (Line.finish Services.answer after.line after.store) t =
      holdings (Line.finish Services.answer (bookingLine bookings) w.ext.store) t := by
  have hline : Line.InStep Alike w.ext.line w.ext.line := by
    rw [hline]
    refine List.forall₂_same.mpr fun b hb => ?_
    obtain ⟨booking, -, rfl⟩ := List.mem_map.mp hb
    exact ⟨rfl, booking.2.job_inStep⟩
  have hstart : Tended (w.ext.line, w.ext.store) w.ext :=
    ⟨hsequenced, fun _ => ⟨0, hline, SameHoldings.refl _⟩⟩
  have hend : Tended (w.ext.line, w.ext.store) ((progressVisits num out db visits).exec w).2.ext :=
    progressVisits_tended visits w hstart
  obtain ⟨n, hline', hstore⟩ := hend.kept htimely
  have hfinish := (Line.finish_same answer_same hline' hstore).holdings t
  rw [Line.finish_iterate] at hfinish
  rw [← ‹w.ext.line = bookingLine bookings›]
  exact hfinish

end Visits

/-! ### A sale of one of three, before the read and after it -/

/-- A database that never fails; every price is 20. -/
def Database.willing : Database Nat where
  failure n := (none, n)
  now n := (1, n)
  addPriceHistory history n := (history ++ [⟨"noon", 20⟩], n)
  getPropertyValue _ _ := none
  mergeProperties stored _ := stored

def plainServices : Services := ⟨fun _ => none, 1, false, fun _ => none⟩

/-- A row that has not been listed yet. -/
def prismRow (owned : Int) : Handlers.StockItem :=
  ⟨1, "prism", "prism", "Prism", "Prism", none, 10, none, owned, false, .pending, [], 0, 0, none⟩

def storeOf (row : Handlers.StockItem) : Handlers.World where
  tables
    | .stockItem => ⟨[row], List.nodup_singleton _⟩
    | .wishList | .transaction => .empty
  sequences _ := row.id
  orders := .new []

/-- The client holds no order. -/
def World.inShop (row : Handlers.StockItem) (bookings : List (Services × Booking)) (turns : List Nat) :
    World (Shop Nat) :=
  .start (.new (some ⟨.new [], 100⟩) false) ⟨storeOf row, bookingLine bookings, turns, ⟨0, []⟩⟩

/-- The prism is put up for sale at the lowest price. -/
def prismVisit : Visit Int :=
  .selling (.sample .plain true) ⟨"prism", "prism", false⟩
    { stockId := some 1, wfmUrl := "prism", wfmId := "prism", sellQuantity := 1, operations := ["Sell"],
      sellMarketInfo := ⟨20, 20, 0, 2⟩ }
    ⟨some 30, 30, true, false⟩ .spread .live {}

theorem sequenced_storeOf (row : Handlers.StockItem) : Sequenced (storeOf row) := by
  intro t row' hrow'
  cases t with
  | stockItem =>
      cases List.mem_singleton.mp hrow'
      exact le_rfl
  | wishList => exact absurd hrow' List.not_mem_nil
  | transaction => exact absurd hrow' List.not_mem_nil

theorem counts_kept_prism :
    let after := ((progressVisits .whole (.willing [] .spread) .willing [prismVisit]).exec
      (World.inShop (prismRow 3) [(plainServices, .soldById 1 1)] [4])).2.ext
    holdings (Line.finish Services.answer after.line after.store) .stockItem =
      holdings (Line.finish Services.answer (bookingLine [(plainServices, .soldById 1 1)]) (storeOf (prismRow 3)))
        .stockItem :=
  counts_kept .whole (.willing [] .spread) .willing [prismVisit] [(plainServices, .soldById 1 1)]
    (World.inShop (prismRow 3) [(plainServices, .soldById 1 1)] [4]) rfl (sequenced_storeOf _) (by decide +kernel) .stockItem

/-- The sale is booked while the order is created, and the write-back brings the third prism back. -/
theorem sale_is_taken_back :
    let after := ((progressVisits .whole (.willing [] .spread) .willing [prismVisit]).exec
      (World.inShop (prismRow 3) [(plainServices, .soldById 1 1)] [0, 4])).2.ext
    holdings (Line.finish Services.answer (bookingLine [(plainServices, .soldById 1 1)]) (storeOf (prismRow 3)))
        .stockItem = [⟨1, "prism", none, ⟨2, 10⟩⟩] ∧
      holdings (Line.finish Services.answer after.line after.store) .stockItem = [⟨1, "prism", none, ⟨3, 10⟩⟩] := by
  decide +kernel

end Quantframe.Trader
