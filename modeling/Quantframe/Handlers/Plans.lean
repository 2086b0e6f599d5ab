import Quantframe.Handlers.Items

/-!
# The plan of each handler

For every function: the operations it goes through when none fails, what it returns then and what it
leaves in the tables. Up to its last statement a mutation only reads.
-/

namespace Quantframe.Handlers

open Lib Prog
open Trades (SubType DateTime Error)

/-- The end of a handler that the caller sees as `Err`. -/
def IsErr (stop : Stop) : Prop := ∃ e, stop = .err e

theorem isErr_panic : ¬ IsErr .panic := by
  rintro ⟨e, h⟩
  cases h

theorem failed_isErr {α : Type} {component message : String} {stop : Stop}
    (h : (failed component message : Except Stop α) = .error stop) : IsErr stop :=
  ⟨_, (Except.error.inj h).symm⟩

/-- `Performs` for the operations as one call finds them. -/
abbrev Goes (sv : Services) {α : Type} (p : Handler α) (w : World) (plan : List Op)
    (out : Except Stop α) (w' : World) : Prop :=
  Performs sv.answer sv.grants IsErr World.tables p w plan out w'

variable {sv : Services} {w w' : World} {t : TableName}

theorem answer_granted {o : Op} (h : sv.grants o) : sv.answer o w = sv.perform o w := by
  simp only [Services.answer, show sv.fails o = none from h]

/-- One operation. -/
theorem goes_call {o : Op} {mapErr : Failure → Error} {r : o.Result}
    (h : sv.perform o w = (.ok r, w')) : Goes sv (call o mapErr) w [o] (.ok r) w' where
  done hall := by
    have hanswer := (answer_granted (hall o List.mem_cons_self)).trans h
    simp only [call, ExceptT.run_mk, eval_bind, eval_perform, hanswer, eval_done]
    rfl
  stopped hsome := by
    obtain ⟨o', ho', hrefused⟩ := hsome
    obtain rfl := List.mem_singleton.mp ho'
    obtain ⟨f, hf⟩ := Option.ne_none_iff_exists'.mp hrefused
    have hanswer : sv.answer o' w = (.error f, w) := by simp only [Services.answer, hf]
    refine ⟨.err (mapErr f), w, ⟨_, rfl⟩, ?_, rfl⟩
    simp only [call, ExceptT.run_mk, eval_bind, eval_perform, hanswer, eval_done]
    rfl

theorem goes_ofExcept {α : Type} (r : Except Stop α) : Goes sv (ofExcept r) w [] r w :=
  Performs.nil rfl

theorem goes_ofExcept_ok {α : Type} {r : Except Stop α} {a : α} (h : r = .ok a) :
    Goes sv (ofExcept r) w [] (.ok a) w := h ▸ goes_ofExcept r

/-! ### Rows of a table -/

theorem le_foldl_max (ids : List Int) (start : Int) :
    start ≤ ids.foldl max start ∧ ∀ id ∈ ids, id ≤ ids.foldl max start := by
  induction ids generalizing start with
  | nil => exact ⟨le_rfl, fun id hid => absurd hid List.not_mem_nil⟩
  | cons first rest ih =>
      obtain ⟨hstart, hrest⟩ := ih (max start first)
      refine ⟨le_trans (le_max_left ..) hstart, fun id hid => ?_⟩
      rcases List.mem_cons.mp hid with rfl | hid
      · exact le_trans (le_max_right ..) hstart
      · exact hrest id hid

theorem lt_nextId {row : Row t} (h : row ∈ (w.tables t).rows) : rowId t row < w.nextId t := by
  have hmem : rowId t row ∈ (w.tables t).rows.map (rowId t) := List.mem_map_of_mem h
  exact Int.lt_add_one_of_le ((le_foldl_max _ (w.sequences t)).2 _ hmem)

theorem tables_insert_of_ne {t' : TableName} (h : t' ≠ t) (row : Row t) (at_ : DateTime) :
    (w.insert t row at_).tables t' = w.tables t' := World.setTable_of_ne w h _

theorem tables_insert_ne (row : Row t) (at_ : DateTime) : (w.insert t row at_).tables ≠ w.tables := by
  intro hsame
  have hnew : ((w.insert t row at_).tables t).lookup (w.nextId t) =
      some (inserted t row (w.nextId t) at_) := by
    rw [show (w.insert t row at_).tables t = _ from World.setTable_self ..,
      Table.lookup_insertOrReplace, if_pos (rowId_inserted ..).symm]
  rw [hsame] at hnew
  have hlt := lt_nextId (Table.mem_of_lookup hnew)
  rw [Table.key_of_lookup hnew] at hlt
  exact lt_irrefl _ hlt

theorem tables_deleteRow_ne {id : Int} {row : Row t} (h : (w.tables t).lookup id = some row) :
    (w.deleteRow t id).tables ≠ w.tables := by
  intro hsame
  have hgone : ((w.deleteRow t id).tables t).lookup id = none := by
    rw [show (w.deleteRow t id).tables t = _ from World.setTable_self .., Table.lookup_delete,
      if_pos rfl]
  rw [hsame, h] at hgone
  cases hgone

theorem tables_updateRow_eq_iff {id : Int} {columns : Columns t} {now : DateTime} {row : Row t}
    (h : (w.tables t).lookup id = some row) :
    (w.updateRow t id columns now).tables = w.tables ↔ applyTo t columns now row = row := by
  have hiff := @Table.update_eq_self_iff _ _ _ _ (w.tables t) id (applyTo t columns now)
    (rowId_applyTo t columns now) row h
  rw [← hiff]
  constructor
  · exact fun hsame => (World.setTable_self ..).symm.trans (congrFun hsame t)
  · intro hsame
    rw [World.updateRow, hsame]
    exact Function.update_eq_self t w.tables

/-- The row of an item is the one its id names. -/
theorem lookup_rowOf {url : String} {subType : Option SubType} {row : Row t}
    (h : w.rowOf t url subType = some row) : (w.tables t).lookup (rowId t row) = some row :=
  Table.lookup_of_mem (List.mem_filter.mp (List.mem_of_find?_eq_some h)).1

/-! ### The statements of a mutation -/

def updatePlan (t : TableName) (id : Int) (columns : Columns t) : List Op :=
  [.statement t (.findById .updateById id), .statement t (.update id columns)]

def deletePlan (t : TableName) (id : Int) : List Op :=
  [.statement t (.findById .deleteById id), .statement t (.delete id)]

theorem goes_findForWrite {caller : Caller} {component label : String} {id : Int} {row : Row t}
    (h : (w.tables t).lookup id = some row) :
    Goes sv (findForWrite t caller component label id) w [.statement t (.findById caller id)]
      (.ok row) w := by
  have hfound : Goes sv (call (.statement t (.findById caller id))
      (fromDb component ("Failed to find " ++ label ++ " by ID"))) w
      [.statement t (.findById caller id)] (.ok ((w.tables t).lookup id)) w := goes_call rfl
  rw [h] at hfound
  exact hfound.andThen (goes_ofExcept (.ok row))

theorem goes_updateById {component label : String} {id : Int} {columns : Columns t} {row : Row t}
    (h : (w.tables t).lookup id = some row) :
    Goes sv (updateById t component label id columns) w (updatePlan t id columns)
      (.ok (applyTo t columns sv.now row)) (w.updateRow t id columns sv.now) := by
  refine (goes_findForWrite h).bind_one (goes_call ?_)
  simp only [Services.perform, Statement.run, h]

theorem goes_deleteById {component label : String} {id : Int} {row : Row t}
    (h : (w.tables t).lookup id = some row) :
    Goes sv (deleteById t component label id) w (deletePlan t id) (.ok ()) (w.deleteRow t id) :=
  (goes_findForWrite h).bind_one (goes_call rfl)

/-! ### The mutations -/

/-- A mutation goes through `plan` and reports `operations`; it changes one of the two item tables
exactly if `changes`, and nothing else. -/
def Mutates {α : Type} (sv : Services) (p : Handler (OperationSet × α)) (w : World) (plan : List Op)
    (operations : OperationSet) (changes : Prop) : Prop :=
  ∃ model w', Goes sv p w plan (.ok (operations, model)) w' ∧ w'.orders = w.orders ∧
    w'.tables .transaction = w.tables .transaction ∧ (w'.tables ≠ w.tables ↔ changes)

section Items

variable (sv : Services) (w : World) (item : CreateItem)

def stockRow : Option StockItem := w.rowOf .stockItem item.wfmUrl item.subType

/-- What a sale leaves of a row. -/
abbrev StockItem.left (row : StockItem) (quantity : Int) : Int :=
  wrapI64 (row.owned - orOne quantity)

/-- What a purchase makes of it. -/
abbrev StockItem.grown (row : StockItem) (quantity : Int) : Int := wrapI64 (row.owned + quantity)

def salePlan : List Op :=
  .statement .stockItem (.findByUrlName item.wfmUrl) ::
    match stockRow w item with
    | none => []
    | some row =>
        .statement .stockItem (.findById .soldById row.id) ::
          if row.left item.quantity ≤ 0 then deletePlan .stockItem row.id
          else updatePlan .stockItem row.id ⟨none, some (row.left item.quantity)⟩

def saleChange : Change :=
  match stockRow w item with
  | none => .notFound
  | some row => if row.left item.quantity ≤ 0 then .deleted else .updated

/-- A row that is not deleted is changed, unless what is left of it is what there was. -/
def SaleChanges : Prop :=
  match stockRow w item with
  | none => False
  | some row =>
      row.left item.quantity ≤ 0 ∨
        { row with owned := row.left item.quantity, updatedAt := sv.now } ≠ row

def additionPlan : List Op :=
  .statement .stockItem (.findByUrlName item.wfmUrl) ::
    match stockRow w item with
    | none => [.statement .stockItem (.insert (StockItemMutation.perUnit (.new item)) none)]
    | some row =>
        match StockItemMutation.weightedAverage row (.new item) with
        | .error _ => []
        | .ok average => updatePlan .stockItem row.id ⟨some average, some (row.grown item.quantity)⟩

def additionChange : Change := if (stockRow w item).isNone then .created else .updated

/-- An update that sets every column to what it was is no change. -/
def AdditionChanges : Prop :=
  match stockRow w item with
  | none => True
  | some row =>
      ∃ average, StockItemMutation.weightedAverage row (.new item) = .ok average ∧
        { row with bought := average, owned := row.grown item.quantity, updatedAt := sv.now } ≠ row

end Items

theorem orOne_ne_zero (quantity : Int) : orOne quantity ≠ 0 := by
  rw [orOne]
  split
  · decide
  · assumption

theorem goes_findStock {url : String} :
    Goes sv (StockItemQuery.findByUrlName url) w [.statement .stockItem (.findByUrlName url)]
      (.ok ((w.tables .stockItem).rows.filter fun row => rowUrl .stockItem row = url)) w :=
  goes_call rfl

/-- The row that `item.subType == subType` picks of those with the slug. -/
theorem find_stock {url : String} {subType : Option SubType} :
    (((w.tables .stockItem).rows.filter fun row => rowUrl .stockItem row = url).find?
      fun row : StockItem => row.subType = subType) = w.rowOf .stockItem url subType := rfl

theorem goes_sold_none (h : stockRow w item = none) :
    Goes sv (StockItemMutation.soldByUrlAndSubType item.wfmUrl item.subType item.quantity) w
      (salePlan w item) (.ok (.notFound, none)) w := by
  simp only [salePlan, h]
  refine goes_findStock.bind_one ?_
  rw [find_stock, show w.rowOf .stockItem item.wfmUrl item.subType = none from h]
  exact .pure _

theorem goes_sold_some {row : StockItem} (h : stockRow w item = some row) :
    Goes sv (StockItemMutation.soldByUrlAndSubType item.wfmUrl item.subType item.quantity) w
      (salePlan w item) (.ok (saleChange w item, some row))
      (if row.left item.quantity ≤ 0 then w.deleteRow .stockItem row.id
        else w.updateRow .stockItem row.id ⟨none, some (row.left item.quantity)⟩ sv.now) := by
  have hlookup : (w.tables .stockItem).lookup row.id = some row := lookup_rowOf h
  simp only [salePlan, saleChange, h]
  refine goes_findStock.bind_one ?_
  rw [find_stock, show w.rowOf .stockItem item.wfmUrl item.subType = some row from h]
  have hfind : Goes sv (call (.statement .stockItem (.findById .soldById row.id))
      (fromDb "StockItemMutation:SoldById" "Failed to find Stock Item by ID")) w
      [.statement .stockItem (.findById .soldById row.id)]
      (.ok ((w.tables .stockItem).lookup row.id)) w := goes_call rfl
  rw [hlookup] at hfind
  refine hfind.bind_one ?_
  by_cases hleft : row.left item.quantity ≤ 0
  · simp only [if_pos hleft]
    exact (goes_deleteById hlookup).andThen (.pure _)
  · simp only [if_neg hleft]
    exact (goes_updateById hlookup).andThen (.pure _)

/-- Taking an `i64` other than 0 from a count changes it. -/
theorem wrapI64_sub_ne {count quantity : Int} (h : InI64 quantity) : wrapI64 (count - orOne quantity) ≠ count := by
  intro hsame
  have hne := orOne_ne_zero quantity
  have hcases : orOne quantity = 1 ∨ orOne quantity = quantity := by
    rw [orOne]
    split
    · exact .inl rfl
    · exact .inr rfl
  unfold wrapI64 words at hsame
  unfold InI64 i64Min i64Max at h
  omega

/-- A sale of an `i64` changes every row it finds. -/
theorem saleChanges_iff (h : InI64 item.quantity) : SaleChanges sv w item ↔ (stockRow w item).isSome = true := by
  rw [SaleChanges]
  cases stockRow w item with
  | none => simp only [Option.isSome_none, Bool.false_eq_true]
  | some row =>
      simp only [Option.isSome_some, iff_true]
      refine .inr fun hsame => wrapI64_sub_ne h (congrArg StockItem.owned hsame)

theorem sale_mutates (sv : Services) (w : World) (item : CreateItem) :
    Mutates sv (mutateStock item .sell) w (salePlan w item) ["ItemSell_" ++ (saleChange w item).asStr]
      (SaleChanges sv w item) := by
  cases hrow : stockRow w item with
  | none =>
      refine ⟨.new item, w, (goes_sold_none hrow).andThen ?_, rfl, rfl, ?_⟩
      · rw [saleChange, hrow]
        exact .pure _
      · simp only [SaleChanges, hrow, ne_eq, not_true_eq_false]
  | some row =>
      have hlookup : (w.tables .stockItem).lookup row.id = some row := lookup_rowOf hrow
      refine ⟨_, _, (goes_sold_some hrow).andThen (.pure _), ?_, ?_, ?_⟩
      · split <;> rfl
      · split <;> exact World.setTable_of_ne _ (by decide) _
      · simp only [SaleChanges, hrow]
        split
        next hgone => exact iff_of_true (tables_deleteRow_ne hlookup) (.inl hgone)
        next hleft =>
          rw [ne_eq, tables_updateRow_eq_iff hlookup, or_iff_right hleft]
          exact Iff.rfl

/-- The stock row of an item, looked up the way `add_item` does. -/
theorem goes_findStockRow {url : String} {subType : Option SubType} :
    Goes sv (StockItemQuery.findByUrlNameAndSubType url subType) w
      [.statement .stockItem (.findByUrlName url)] (.ok (w.rowOf .stockItem url subType)) w :=
  goes_findStock.andThen (.pure _)

section Addition

variable {stock : StockItem}

theorem goes_addItem_none (h : w.rowOf .stockItem stock.wfmUrl stock.subType = none) :
    Goes sv (StockItemMutation.addItem stock) w
      [.statement .stockItem (.findByUrlName stock.wfmUrl),
        .statement .stockItem (.insert (StockItemMutation.perUnit stock) none)]
      (.ok (.created, inserted .stockItem (StockItemMutation.perUnit stock) (w.nextId .stockItem) sv.now))
      (w.insert .stockItem (StockItemMutation.perUnit stock) sv.now) := by
  refine goes_findStockRow.bind_one ?_
  rw [h]
  exact (goes_call rfl).andThen (.pure _)

theorem goes_addItem_panic {row : StockItem} {stop : Stop}
    (h : w.rowOf .stockItem stock.wfmUrl stock.subType = some row)
    (haverage : StockItemMutation.weightedAverage row stock = .error stop) :
    Goes sv (StockItemMutation.addItem stock) w [.statement .stockItem (.findByUrlName stock.wfmUrl)]
      (.error stop) w := by
  refine goes_findStockRow.bind_one ?_
  rw [h]
  refine Performs.bind_error ?_
  rw [haverage]
  exact goes_ofExcept _

theorem goes_addItem_some {row : StockItem} {average : Int}
    (h : w.rowOf .stockItem stock.wfmUrl stock.subType = some row)
    (haverage : StockItemMutation.weightedAverage row stock = .ok average) :
    Goes sv (StockItemMutation.addItem stock) w
      (.statement .stockItem (.findByUrlName stock.wfmUrl) ::
        updatePlan .stockItem row.id ⟨some average, some (row.grown stock.owned)⟩)
      (.ok (.updated, applyTo .stockItem ⟨some average, some (row.grown stock.owned)⟩ sv.now row))
      (w.updateRow .stockItem row.id ⟨some average, some (row.grown stock.owned)⟩ sv.now) := by
  have hlookup : (w.tables .stockItem).lookup row.id = some row := lookup_rowOf h
  refine goes_findStockRow.bind_one ?_
  rw [h]
  exact (goes_ofExcept_ok haverage).bind_nil ((goes_updateById hlookup).andThen (.pure _))

end Addition

/-- `add_item` panics before it writes when it has no units to divide by. -/
theorem addition_panics {row : StockItem} {stop : Stop} (h : stockRow w item = some row)
    (haverage : StockItemMutation.weightedAverage row (.new item) = .error stop) :
    Goes sv (mutateStock item .buy) w (additionPlan w item) (.error stop) w := by
  simp only [additionPlan, h, haverage]
  exact Performs.bind_error (goes_addItem_panic h haverage)

theorem goes_added_none (h : stockRow w item = none) :
    Goes sv (StockItemMutation.addItem (.new item)) w (additionPlan w item)
      (.ok (.created, inserted .stockItem (StockItemMutation.perUnit (.new item))
        (w.nextId .stockItem) sv.now))
      (w.insert .stockItem (StockItemMutation.perUnit (.new item)) sv.now) := by
  simp only [additionPlan, h]
  exact goes_addItem_none h

theorem goes_added_some {row : StockItem} {average : Int} (h : stockRow w item = some row)
    (haverage : StockItemMutation.weightedAverage row (.new item) = .ok average) :
    Goes sv (StockItemMutation.addItem (.new item)) w (additionPlan w item)
      (.ok (.updated, applyTo .stockItem ⟨some average, some (row.grown item.quantity)⟩ sv.now row))
      (w.updateRow .stockItem row.id ⟨some average, some (row.grown item.quantity)⟩ sv.now) := by
  simp only [additionPlan, h, haverage]
  exact goes_addItem_some h haverage

theorem addition_mutates (sv : Services) (w : World) (item : CreateItem)
    (hnopanic : ∀ row, stockRow w item = some row →
      ∃ average, StockItemMutation.weightedAverage row (.new item) = .ok average) :
    Mutates sv (mutateStock item .buy) w (additionPlan w item)
      ["ItemBuy_" ++ (additionChange w item).asStr] (AdditionChanges sv w item) := by
  rw [additionChange]
  cases hrow : stockRow w item with
  | none =>
      refine ⟨_, _, (goes_added_none hrow).andThen (.pure _), rfl, ?_, ?_⟩
      · exact tables_insert_of_ne (by decide) _ _
      · simp only [AdditionChanges, hrow, iff_true]
        exact tables_insert_ne _ _
  | some row =>
      have hlookup : (w.tables .stockItem).lookup row.id = some row := lookup_rowOf hrow
      obtain ⟨average, haverage⟩ := hnopanic row hrow
      refine ⟨_, _, (goes_added_some hrow haverage).andThen (.pure _), rfl, ?_, ?_⟩
      · exact World.setTable_of_ne _ (by decide) _
      · rw [ne_eq, tables_updateRow_eq_iff hlookup]
        simp only [AdditionChanges, hrow, haverage]
        constructor
        · exact fun hne => ⟨average, rfl, hne⟩
        · rintro ⟨average', haverage'', hne⟩
          rw [← Except.ok.inj haverage''] at hne
          exact hne

section Wishes

variable (sv : Services) (w : World) (item : CreateItem)

def wishRow : Option WishListItem := w.rowOf .wishList item.wfmUrl item.subType

/-- The row a purchase is taken from, by its id. -/
def wishId : Int := (wishRow w item).elim (-1) WishListItem.id

def boughtRow : Option WishListItem := (w.tables .wishList).lookup (wishId w item)

abbrev WishListItem.left (row : WishListItem) (quantity : Int) : Int :=
  wrapI64 (row.quantity - orOne quantity)

abbrev WishListItem.grown (row : WishListItem) (quantity : Int) : Int := wrapI64 (row.quantity + quantity)

def purchasePlan : List Op :=
  .statement .wishList (.findByUrlName item.wfmUrl) ::
    .statement .wishList (.findById .boughtById (wishId w item)) ::
      match boughtRow w item with
      | none => []
      | some row =>
          if row.left item.quantity ≤ 0 then deletePlan .wishList (wishId w item)
          else updatePlan .wishList (wishId w item) ⟨some (row.left item.quantity)⟩

def purchaseChange : Change :=
  match boughtRow w item with
  | none => .notFound
  | some row => if row.left item.quantity ≤ 0 then .deleted else .updated

def wishPlan : List Op :=
  .statement .wishList (.findByUrlName item.wfmUrl) ::
    match wishRow w item with
    | none => [.statement .wishList (.insert (.new item) none)]
    | some row => updatePlan .wishList row.id ⟨some (row.grown item.quantity)⟩

def wishChange : Change := if (wishRow w item).isNone then .created else .updated

def WishChanges : Prop :=
  match wishRow w item with
  | none => True
  | some row => { row with quantity := row.grown item.quantity, updatedAt := sv.now } ≠ row

end Wishes

theorem goes_findWishRow :
    Goes sv (WishListQuery.findByUrlNameAndSubType item.wfmUrl item.subType) w
      [.statement .wishList (.findByUrlName item.wfmUrl)] (.ok (wishRow w item)) w :=
  Performs.andThen (goes_call rfl) (.pure _)

theorem goes_findBought {id : Int} :
    Goes sv (call (.statement .wishList (.findById .boughtById id))
        (fromDb "WishListMutation:BoughtById" "Failed to find Wish List item by ID")) w
      [.statement .wishList (.findById .boughtById id)] (.ok ((w.tables .wishList).lookup id)) w :=
  goes_call rfl

theorem goes_bought_none {id quantity : Int} (h : (w.tables .wishList).lookup id = none) :
    Goes sv (WishListMutation.boughtById id quantity) w [.statement .wishList (.findById .boughtById id)]
      (.ok (.notFound, none)) w := by
  refine goes_findBought.bind_one ?_
  rw [h]
  exact .pure _

theorem goes_bought_some {id quantity : Int} {row : WishListItem}
    (h : (w.tables .wishList).lookup id = some row) :
    Goes sv (WishListMutation.boughtById id quantity) w
      (.statement .wishList (.findById .boughtById id) ::
        if row.left quantity ≤ 0 then deletePlan .wishList id
        else updatePlan .wishList id ⟨some (row.left quantity)⟩)
      (.ok (if row.left quantity ≤ 0 then .deleted else .updated,
        some { row with quantity := row.left quantity }))
      (if row.left quantity ≤ 0 then w.deleteRow .wishList id
        else w.updateRow .wishList id ⟨some (row.left quantity)⟩ sv.now) := by
  refine goes_findBought.bind_one ?_
  rw [h]
  by_cases hleft : row.left quantity ≤ 0
  · simp only [if_pos hleft]
    exact (goes_deleteById h).andThen (.pure _)
  · simp only [if_neg hleft]
    exact (goes_updateById h).andThen (.pure _)

theorem purchase_notFound (h : boughtRow w item = none) :
    Goes sv (mutateWishList item .buy) w (purchasePlan w item)
      (.ok (["WishListItemBought_" ++ Change.notFound.asStr], .new item)) w := by
  simp only [purchasePlan, h]
  exact Performs.andThen (goes_findWishRow.bind_one (goes_bought_none h)) (.pure _)

/-- The row a purchase is taken from is deleted or changed. -/
def PurchaseChanges (sv : Services) (w : World) (item : CreateItem) : Prop :=
  match boughtRow w item with
  | none => False
  | some row =>
      row.left item.quantity ≤ 0 ∨
        { row with quantity := row.left item.quantity, updatedAt := sv.now } ≠ row

theorem purchaseChanges_iff (h : InI64 item.quantity) :
    PurchaseChanges sv w item ↔ (boughtRow w item).isSome = true := by
  rw [PurchaseChanges]
  cases boughtRow w item with
  | none => simp only [Option.isSome_none, Bool.false_eq_true]
  | some row =>
      simp only [Option.isSome_some, iff_true]
      refine .inr fun hsame => wrapI64_sub_ne h (congrArg WishListItem.quantity hsame)

/-- What a purchase leaves of the row it is taken from. -/
def bought (sv : Services) (w : World) (item : CreateItem) (row : WishListItem) : World :=
  if row.left item.quantity ≤ 0 then w.deleteRow .wishList (wishId w item)
  else w.updateRow .wishList (wishId w item) ⟨some (row.left item.quantity)⟩ sv.now

theorem purchase_found {row : WishListItem} (h : boughtRow w item = some row) :
    Goes sv (mutateWishList item .buy) w (purchasePlan w item)
      (.ok (["WishListItemBought_" ++ (purchaseChange w item).asStr],
        { row with quantity := row.left item.quantity })) (bought sv w item row) := by
  have hlookup : (w.tables .wishList).lookup (wishId w item) = some row := h
  simp only [purchasePlan, purchaseChange, h]
  exact Performs.andThen (goes_findWishRow.bind_one (goes_bought_some hlookup)) (.pure _)

theorem purchase_mutates (sv : Services) (w : World) (item : CreateItem) :
    Mutates sv (mutateWishList item .buy) w (purchasePlan w item)
      ["WishListItemBought_" ++ (purchaseChange w item).asStr] (PurchaseChanges sv w item) := by
  cases hrow : boughtRow w item with
  | none =>
      refine ⟨.new item, w, ?_, rfl, rfl, ?_⟩
      · simpa only [purchaseChange, hrow] using purchase_notFound hrow
      · simp only [PurchaseChanges, hrow, ne_eq, not_true_eq_false]
  | some row =>
      have hlookup : (w.tables .wishList).lookup (wishId w item) = some row := hrow
      refine ⟨_, _, purchase_found hrow, ?_, ?_, ?_⟩
      · rw [bought]
        split <;> rfl
      · rw [bought]
        split <;> exact World.setTable_of_ne _ (by decide) _
      · simp only [PurchaseChanges, hrow, bought]
        split
        next hgone => exact iff_of_true (tables_deleteRow_ne hlookup) (.inl hgone)
        next hleft =>
          rw [ne_eq, tables_updateRow_eq_iff hlookup, or_iff_right hleft]
          exact Iff.rfl

theorem wish_mutates (sv : Services) (w : World) (item : CreateItem) :
    Mutates sv (mutateWishList item .sell) w (wishPlan w item)
      ["WishListItemSold_" ++ (wishChange w item).asStr] (WishChanges sv w item) := by
  rw [wishChange]
  cases hrow : wishRow w item with
  | none =>
      have hgoes : Goes sv (WishListMutation.addItem (.new item)) w (wishPlan w item)
          (.ok (.created, inserted .wishList (.new item) (w.nextId .wishList) sv.now))
          (w.insert .wishList (.new item) sv.now) := by
        simp only [wishPlan, hrow]
        refine goes_findWishRow.bind_one ?_
        rw [hrow]
        exact (goes_call rfl).andThen (.pure _)
      refine ⟨_, _, hgoes.andThen (.pure _), rfl, ?_, ?_⟩
      · exact tables_insert_of_ne (by decide) _ _
      · simp only [WishChanges, hrow, iff_true]
        exact tables_insert_ne _ _
  | some row =>
      have hlookup : (w.tables .wishList).lookup row.id = some row := lookup_rowOf hrow
      have hgoes : Goes sv (WishListMutation.addItem (.new item)) w (wishPlan w item)
          (.ok (.updated, applyTo .wishList ⟨some (row.grown item.quantity)⟩ sv.now row))
          (w.updateRow .wishList row.id ⟨some (row.grown item.quantity)⟩ sv.now) := by
        simp only [wishPlan, hrow]
        refine goes_findWishRow.bind_one ?_
        rw [hrow]
        exact (goes_updateById hlookup).andThen (.pure _)
      refine ⟨_, _, hgoes.andThen (.pure _), rfl, ?_, ?_⟩
      · exact World.setTable_of_ne _ (by decide) _
      · rw [ne_eq, tables_updateRow_eq_iff hlookup]
        simp only [WishChanges, hrow]
        exact Iff.rfl

end Quantframe.Handlers
