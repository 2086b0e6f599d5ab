import Quantframe.Trader.Rows

/-!
# Sales and purchases

The calls that book a sale or a purchase ask the tables for nothing but which rows there are and how much
they hold, so whatever else is in the rows they book the same.
-/

namespace Quantframe.Trader

open Lib
open Lib.Prog (InStep InStepE BothEnd)
open Handlers (TableName Row Columns Statement Services Op Failure Handler call)
open Trades (Error SubType DateTime)

/-- A call that books a sale or a purchase. -/
inductive Booking where
  | soldById (id quantity : Int)
  | soldByUrlAndSubType (url : String) (subType : Option SubType) (quantity : Int)
  | addItem (stock : Handlers.StockItem)
  | boughtById (id quantity : Int)
  | boughtByUrlAndSubType (url : String) (subType : Option SubType) (quantity : Int)

def Booking.job : Booking → Prog Op Handlers.Reply Unit
  | .soldById id quantity => (Handlers.StockItemMutation.soldById id quantity).run >>= fun _ => .done ()
  | .soldByUrlAndSubType url subType quantity =>
      (Handlers.StockItemMutation.soldByUrlAndSubType url subType quantity).run >>= fun _ => .done ()
  | .addItem stock => (Handlers.StockItemMutation.addItem stock).run >>= fun _ => .done ()
  | .boughtById id quantity => (Handlers.WishListMutation.boughtById id quantity).run >>= fun _ => .done ()
  | .boughtByUrlAndSubType url subType quantity =>
      (Handlers.WishListMutation.boughtByUrlAndSubType url subType quantity).run >>= fun _ => .done ()

/-! ### What a reply shows of the rows -/

def shown {t : TableName} : (s : Statement t) → s.Result → List Holding
  | .findByUrlName _, rows => rows.map (holding t)
  | .findById _ _, row => row.toList.map (holding t)
  | .insert _ _, row => [holding t row]
  | .update _ _, row => [holding t row]
  | .delete _, _ => []

def Alike : (o : Op) → Handlers.Reply o → Handlers.Reply o → Prop
  | .statement _ s, r, r' => Except.map (shown s) r = Except.map (shown s) r'
  | _, _, _ => True

/-- The tables hold the same rows, as far as their holdings show. -/
structure SameHoldings (w v : Handlers.World) : Prop where
  holdings : ∀ t, holdings w t = holdings v t
  sequences : w.sequences = v.sequences

theorem SameHoldings.refl (w : Handlers.World) : SameHoldings w w := ⟨fun _ => rfl, rfl⟩

theorem SameHoldings.trans {u w v : Handlers.World} (h : SameHoldings u w) (h' : SameHoldings w v) : SameHoldings u v :=
  ⟨fun t => (h.holdings t).trans (h'.holdings t), h.sequences.trans h'.sequences⟩

/-- What an `UPDATE` of a booking does to a holding. -/
def holdingAfter : (t : TableName) → Columns t → Holding → Holding
  | .stockItem, u, x => { x with count := ⟨(Handlers.UpdateStockItem.owned u).getD x.count.quantity,
      (Handlers.UpdateStockItem.bought u).getD x.count.bought⟩ }
  | .wishList, u, x => { x with count := ⟨(Handlers.UpdateWishList.quantity u).getD x.count.quantity, x.count.bought⟩ }

section Holdings

variable {w v : Handlers.World} {t : TableName}

theorem holding_applyTo (t : TableName) (u : Columns t) (now : DateTime) (row : Row t) :
    holding t (Handlers.applyTo t u now row) = holdingAfter t u (holding t row) := by
  cases t with
  | stockItem => rfl
  | wishList => rfl
  | transaction => exact u.elim

theorem holding_inserted (t : TableName) (row : Row t) (id : Int) (at_ : DateTime) :
    holding t (Handlers.inserted t row id at_) = { holding t row with id := id } := by
  cases t with
  | stockItem => rfl
  | wishList => rfl
  | transaction => rfl

theorem holdings_setTable (w : Handlers.World) (t t' : TableName) (table : Table (Handlers.rowId t)) :
    holdings (w.setTable t table) t' = if t' = t then table.rows.map (holding t) else holdings w t' := by
  by_cases ht : t' = t
  · subst ht
    rw [if_pos rfl, holdings, Handlers.World.setTable_self]
  · rw [if_neg ht, holdings, Handlers.World.setTable_of_ne w ht, holdings]

theorem SameHoldings.setTable (h : SameHoldings w v) {table table' : Table (Handlers.rowId t)}
    (hrows : table.rows.map (holding t) = table'.rows.map (holding t)) :
    SameHoldings (w.setTable t table) (v.setTable t table') where
  holdings t' := by rw [holdings_setTable, holdings_setTable, hrows, h.holdings t']
  sequences := h.sequences

theorem lookup_holding (w : Handlers.World) (t : TableName) (id : Int) :
    ((w.tables t).lookup id).map (holding t) = (holdings w t).find? fun x => x.id = id := by
  rw [holdings, List.find?_map]
  rfl

theorem SameHoldings.lookup (h : SameHoldings w v) (t : TableName) (id : Int) :
    ((w.tables t).lookup id).map (holding t) = ((v.tables t).lookup id).map (holding t) := by
  rw [lookup_holding, lookup_holding, h.holdings t]

theorem filter_holding (rows : List (Row t)) (p : Holding → Bool) :
    (rows.filter fun r => p (holding t r)).map (holding t) = (rows.map (holding t)).filter p :=
  List.filter_map.symm

theorem nextId_holdings (w : Handlers.World) (t : TableName) :
    w.nextId t = ((holdings w t).map Holding.id).foldl max (w.sequences t) + 1 := by
  rw [holdings, List.map_map]
  rfl

theorem SameHoldings.nextId (h : SameHoldings w v) (t : TableName) : w.nextId t = v.nextId t := by
  rw [nextId_holdings, nextId_holdings, h.holdings t, h.sequences]

/-- Rows that are updated alike stay alike. -/
theorem update_holding (table : Table (Handlers.rowId t)) (id : Int) {f : Row t → Row t}
    (hf : ∀ r, Handlers.rowId t (f r) = Handlers.rowId t r) {g : Holding → Holding}
    (hg : ∀ r, holding t (f r) = g (holding t r)) :
    (table.update id f hf).rows.map (holding t) =
      (table.rows.map (holding t)).map fun x => if x.id = id then g x else x := by
  rw [Table.rows_update, List.map_map, List.map_map]
  refine List.map_congr_left fun r _ => ?_
  simp only [Function.comp_apply]
  have hid : (holding t r).id = Handlers.rowId t r := rfl
  rw [hid]
  split
  · exact hg r
  · rfl

/-- A statement of a booking does the same to tables that hold the same. -/
theorem run_same (h : SameHoldings w v) (now : DateTime) (s : Statement t) :
    Except.map (shown s) (s.run now w t).1 = Except.map (shown s) (s.run now v t).1 ∧
      SameHoldings (s.run now w t).2 (s.run now v t).2 := by
  have hrows : (w.tables t).rows.map (holding t) = (v.tables t).rows.map (holding t) := h.holdings t
  cases s with
  | findByUrlName url =>
      refine ⟨congrArg Except.ok ?_, h⟩
      have hfilter : ∀ rows : List (Row t), (rows.filter fun row => Handlers.rowUrl t row = url).map (holding t) =
          (rows.map (holding t)).filter fun x => x.url = url := fun rows => filter_holding rows fun x => x.url = url
      simp only [shown, hfilter, hrows]
  | findById caller id =>
      refine ⟨congrArg Except.ok ?_, h⟩
      simp only [shown, ← Option.toList_map]
      rw [h.lookup t id]
  | insert row createdAt =>
      refine ⟨congrArg Except.ok ?_, ?_⟩
      · simp only [shown, holding_inserted, h.nextId t]
      · have htable : ∀ w : Handlers.World, ((w.tables t).insertOrReplace
            (Handlers.inserted t row (w.nextId t) (createdAt.getD now))).rows.map (holding t) =
              ((holdings w t).filter fun x => x.id ≠ w.nextId t) ++ [{ holding t row with id := w.nextId t }] := by
          intro w
          have hfilter := filter_holding (w.tables t).rows fun x => decide (x.id ≠ w.nextId t)
          rw [Table.rows_insertOrReplace, List.map_append, List.map_singleton, holding_inserted,
            Handlers.rowId_inserted, holdings, ← hfilter]
          rfl
        have hset := h.setTable (t := t) ((htable w).trans (by rw [h.holdings t, h.nextId t, ← htable v]))
        exact ⟨hset.holdings, by simp only [Statement.run, Handlers.World.insert, h.sequences, h.nextId t]⟩
  | update id columns =>
      have hfound := h.lookup t id
      have hset : SameHoldings (w.updateRow t id columns now) (v.updateRow t id columns now) := by
        refine h.setTable ?_
        rw [update_holding _ id _ (holding_applyTo t columns now), update_holding _ id _ (holding_applyTo t columns now),
          hrows]
      cases hw : (w.tables t).lookup id with
      | none =>
          rw [hw, Option.map_none] at hfound
          have hv := Option.map_eq_none_iff.mp hfound.symm
          simp only [Statement.run, hw, hv]
          exact ⟨trivial, h⟩
      | some row =>
          rw [hw, Option.map_some] at hfound
          obtain ⟨row', hv, hsame⟩ := Option.map_eq_some_iff.mp hfound.symm
          simp only [Statement.run, hw, hv]
          refine ⟨congrArg Except.ok ?_, hset⟩
          simp only [shown, holding_applyTo, hsame]
  | delete id =>
      refine ⟨rfl, h.setTable ?_⟩
      have hfilter := filter_holding (t := t) (p := fun x => decide (x.id ≠ id))
      have hleft : ∀ w : Handlers.World, ((w.tables t).delete id).rows.map (holding t) =
          ((w.tables t).rows.map (holding t)).filter fun x => decide (x.id ≠ id) := fun w => hfilter (w.tables t).rows
      rw [hleft, hleft, hrows]

theorem answer_same (sv : Services) (o : Op) (w v : Handlers.World) (h : SameHoldings w v) :
    Alike o (sv.answer o w).1 (sv.answer o v).1 ∧ SameHoldings (sv.answer o w).2 (sv.answer o v).2 := by
  rw [Services.answer, Services.answer]
  cases sv.fails o with
  | some failure =>
      refine ⟨?_, h⟩
      cases o with
      | statement t s => rfl
      | _ => trivial
  | none =>
      cases o with
      | statement t s => exact run_same h sv.now s
      | cacheClient => exact ⟨trivial, h⟩
      | appState => exact ⟨trivial, h⟩
      | closeOrder id quantity => exact ⟨trivial, h.holdings, h.sequences⟩
      | deleteOrder id => exact ⟨trivial, h.holdings, h.sequences⟩
      | updateOrder id args => exact ⟨trivial, h.holdings, h.sequences⟩
      | countTransactions filter => exact ⟨trivial, h⟩
      | fetchTransactions filter page limit => exact ⟨trivial, h⟩

end Holdings

/-! ### The bookings in step -/

section InStep

variable {t : TableName}

theorem call_inStep (s : Statement t) (mapErr : Failure → Error) :
    InStepE Alike (fun a b => shown s a = shown s b) (call (.statement t s) mapErr) (call (.statement t s) mapErr) := by
  refine InStep.bind (InStep.perform fun r r' hr => .done ?_)
  cases r with
  | ok a =>
      cases r' with
      | ok b => exact Except.ok.inj hr
      | error e => cases hr
  | error e =>
      cases r' with
      | ok b => cases hr
      | error e' => exact trivial

theorem ofExcept_inStep {α : Type} (r : Except Handlers.Stop α) :
    InStepE Alike Eq (Handlers.ofExcept r) (Handlers.ofExcept r) := by
  cases r with
  | ok a => exact InStep.done rfl
  | error e => exact InStep.done trivial

/-- What two looks for one row have found. -/
theorem found_cases {a b : Option (Row t)} (h : a.toList.map (holding t) = b.toList.map (holding t)) :
    (a = none ∧ b = none) ∨ ∃ r r', a = some r ∧ b = some r' ∧ holding t r = holding t r' := by
  cases a with
  | none =>
      cases b with
      | none => exact .inl ⟨rfl, rfl⟩
      | some r' => cases h
  | some r =>
      cases b with
      | none => cases h
      | some r' => exact .inr ⟨r, r', rfl, rfl, List.cons.inj h |>.1⟩

theorem findForWrite_inStep (caller : Handlers.Caller) (component label : String) (id : Int) :
    InStepE Alike (fun _ _ => True) (Handlers.findForWrite t caller component label id)
      (Handlers.findForWrite t caller component label id) := by
  refine (call_inStep _ _).bind fun a b hab => ?_
  rcases found_cases hab with ⟨rfl, rfl⟩ | ⟨r, r', rfl, rfl, -⟩
  · exact InStep.done trivial
  · exact InStep.done trivial

theorem updateById_inStep (component label : String) (id : Int) (columns : Columns t) :
    InStepE Alike (fun _ _ => True) (Handlers.updateById t component label id columns)
      (Handlers.updateById t component label id columns) :=
  (findForWrite_inStep _ _ _ _).bind fun _ _ _ =>
    (call_inStep (Statement.update id columns) _).mono fun _ _ _ => trivial

theorem deleteById_inStep (component label : String) (id : Int) :
    InStepE Alike (fun _ _ => True) (Handlers.deleteById t component label id)
      (Handlers.deleteById t component label id) :=
  (findForWrite_inStep _ _ _ _).bind fun _ _ _ =>
    (call_inStep (Statement.delete id : Statement t) _).mono fun _ _ _ => trivial

/-- The first row with a sub-type, among rows that hold the same. -/
theorem find_subType {rows rows' : List (Row t)} (h : rows.map (holding t) = rows'.map (holding t))
    (subType : Option SubType) :
    (rows.find? fun r => Handlers.rowSubType t r = subType).toList.map (holding t) =
      (rows'.find? fun r => Handlers.rowSubType t r = subType).toList.map (holding t) := by
  have hfind : ∀ rows : List (Row t), (rows.find? fun r => Handlers.rowSubType t r = subType).map (holding t) =
      (rows.map (holding t)).find? fun x => x.subType = subType := by
    intro rows
    rw [List.find?_map]
    rfl
  rw [← Option.toList_map, ← Option.toList_map, hfind, hfind, h]

theorem soldById_inStep (id quantity : Int) :
    InStepE Alike (fun _ _ => True) (Handlers.StockItemMutation.soldById id quantity)
      (Handlers.StockItemMutation.soldById id quantity) := by
  refine (call_inStep (t := .stockItem) _ _).bind fun a b hab => ?_
  rcases found_cases hab with ⟨rfl, rfl⟩ | ⟨item, item', rfl, rfl, hsame⟩
  · exact .pure trivial
  · obtain ⟨hid, -, -, hcount⟩ := Holding.mk.injEq .. ▸ hsame
    have howned : item.owned = item'.owned := congrArg Count.quantity hcount
    have hid : item.id = item'.id := hid
    simp only [howned, hid]
    split
    · exact (deleteById_inStep _ _ _).bind fun _ _ _ => .pure trivial
    · exact (updateById_inStep _ _ _ _).bind fun _ _ _ => .pure trivial

theorem soldByUrlAndSubType_inStep (url : String) (subType : Option SubType) (quantity : Int) :
    InStepE Alike (fun _ _ => True) (Handlers.StockItemMutation.soldByUrlAndSubType url subType quantity)
      (Handlers.StockItemMutation.soldByUrlAndSubType url subType quantity) := by
  refine (call_inStep (t := .stockItem) _ _).bind fun rows rows' hrows => ?_
  rcases found_cases (a := List.find? (fun item : Handlers.StockItem => item.subType = subType) rows)
    (find_subType hrows subType) with ⟨hnone, hnone'⟩ | ⟨item, item', hitem, hitem', hsame⟩
  · have hnone' : List.find? (fun item : Handlers.StockItem => item.subType = subType) rows' = none := hnone'
    rw [hnone, hnone']
    exact .pure trivial
  · have hitem' : List.find? (fun item : Handlers.StockItem => item.subType = subType) rows' = some item' := hitem'
    rw [hitem, hitem']
    have hid : item.id = item'.id := congrArg Holding.id hsame
    show InStepE Alike _ (Handlers.StockItemMutation.soldById item.id quantity) _
    rw [hid]
    exact soldById_inStep _ _

theorem addItem_inStep (stock : Handlers.StockItem) :
    InStepE Alike (fun _ _ => True) (Handlers.StockItemMutation.addItem stock)
      (Handlers.StockItemMutation.addItem stock) := by
  have hfind : InStepE Alike (fun a b : Option Handlers.StockItem => a.toList.map (holding .stockItem) =
      b.toList.map (holding .stockItem))
      (Handlers.StockItemQuery.findByUrlNameAndSubType stock.wfmUrl stock.subType)
      (Handlers.StockItemQuery.findByUrlNameAndSubType stock.wfmUrl stock.subType) :=
    (call_inStep (t := .stockItem) _ _).bind fun _ _ hrows => .pure (find_subType hrows _)
  refine hfind.bind fun a b hab => ?_
  rcases found_cases hab with ⟨rfl, rfl⟩ | ⟨item, item', rfl, rfl, hsame⟩
  · exact (call_inStep _ _).bind fun _ _ _ => .pure trivial
  · have hid : item.id = item'.id := congrArg Holding.id hsame
    have howned : item.owned = item'.owned := congrArg (fun x => x.count.quantity) hsame
    have hbought : item.bought = item'.bought := congrArg (fun x => x.count.bought) hsame
    simp only [Handlers.StockItemMutation.weightedAverage, hid, howned, hbought]
    refine (ofExcept_inStep _).bind fun average average' haverage => ?_
    subst haverage
    exact (updateById_inStep _ _ _ _).bind fun _ _ _ => .pure trivial

theorem boughtById_inStep (id quantity : Int) :
    InStepE Alike (fun _ _ => True) (Handlers.WishListMutation.boughtById id quantity)
      (Handlers.WishListMutation.boughtById id quantity) := by
  refine (call_inStep (t := .wishList) _ _).bind fun a b hab => ?_
  rcases found_cases hab with ⟨rfl, rfl⟩ | ⟨item, item', rfl, rfl, hsame⟩
  · exact .pure trivial
  · have hquantity : item.quantity = item'.quantity := congrArg (fun x => x.count.quantity) hsame
    simp only [hquantity]
    split
    · exact (deleteById_inStep _ _ _).bind fun _ _ _ => .pure trivial
    · exact (updateById_inStep _ _ _ _).bind fun _ _ _ => .pure trivial

theorem boughtByUrlAndSubType_inStep (url : String) (subType : Option SubType) (quantity : Int) :
    InStepE Alike (fun _ _ => True) (Handlers.WishListMutation.boughtByUrlAndSubType url subType quantity)
      (Handlers.WishListMutation.boughtByUrlAndSubType url subType quantity) := by
  have hfind : InStepE Alike (fun a b : Option Handlers.WishListItem => a.toList.map (holding .wishList) =
      b.toList.map (holding .wishList)) (Handlers.WishListQuery.findByUrlNameAndSubType url subType)
      (Handlers.WishListQuery.findByUrlNameAndSubType url subType) :=
    (call_inStep (t := .wishList) _ _).bind fun _ _ hrows => .pure (find_subType hrows _)
  refine hfind.bind fun a b hab => ?_
  rcases found_cases hab with ⟨rfl, rfl⟩ | ⟨item, item', rfl, rfl, hsame⟩
  · exact boughtById_inStep _ _
  · have hid : item.id = item'.id := congrArg Holding.id hsame
    simp only [Option.elim_some, hid]
    exact boughtById_inStep _ _

/-- Whatever else the rows tell it, a booking does the same. -/
theorem Booking.job_inStep (b : Booking) : InStep Alike (fun _ _ => True) b.job b.job := by
  have hdone : ∀ {α : Type} {h : Handler α}, InStepE Alike (fun _ _ => True) h h →
      InStep Alike (fun _ _ => True) (h.run >>= fun _ => .done ()) (h.run >>= fun _ => .done ()) :=
    fun h => InStep.bind (InStep.mono h fun _ _ _ => .done trivial)
  cases b with
  | soldById id quantity => exact hdone (soldById_inStep id quantity)
  | soldByUrlAndSubType url subType quantity => exact hdone (soldByUrlAndSubType_inStep url subType quantity)
  | addItem stock => exact hdone (addItem_inStep stock)
  | boughtById id quantity => exact hdone (boughtById_inStep id quantity)
  | boughtByUrlAndSubType url subType quantity => exact hdone (boughtByUrlAndSubType_inStep url subType quantity)

end InStep

end Quantframe.Trader
