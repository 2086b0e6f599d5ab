import Quantframe.Handlers.Untouched

/-!
# Where the units of a purchase go

A purchase is booked on one of two tables: on the wish list when a row matches, else in the stock. The
wish list books no more than its row asks for.
-/

namespace Quantframe.Handlers

open Lib Prog
open Trades (SubType DateTime Error Direction ResolvedItem)

variable {parse : String → Except String DateTime} {sv : Services} {w w' : World}

/-! ### What follows a mutation -/

/-- The two tables of items. -/
def World.items (w : World) : Table (rowId .stockItem) × Table (rowId .wishList) :=
  (w.tables .stockItem, w.tables .wishList)

def Op.sparesItems : Op → Prop
  | .statement t _ => t = .transaction
  | _ => True

theorem answer_items (o : Op) (w : World) (h : o.sparesItems) : (sv.answer o w).2.items = w.items := by
  simp only [Services.answer]
  split
  · rfl
  · cases o with
    | statement t s =>
        cases h
        cases s with
        | update id columns => exact columns.elim
        | _ => rfl
    | _ => rfl

section Spares

theorem spares_call {o : Op} {mapErr : Failure → Error} (h : o.sparesItems) :
    (call o mapErr).run.Uses Op.sparesItems := ⟨h, fun _ => trivial⟩

theorem spares_ofExcept {α : Type} (r : Except Stop α) : (ofExcept r).run.Uses Op.sparesItems := trivial

theorem spares_pure {α : Type} (a : α) : (pure a : Handler α).run.Uses Op.sparesItems := trivial

theorem spares_send (reporting delete : Bool) (order : Market.Order) (quantity : Int) :
    (orderRequest reporting delete order quantity).send.run.Uses Op.sparesItems := by
  refine Uses.bindE (spares_call ?_) fun _ => spares_pure _
  rcases orderRequest_cases reporting delete order quantity with ⟨_, _, h⟩ | ⟨_, h⟩ | ⟨_, _, h⟩ <;>
    rw [h] <;> trivial

theorem spares_wfm (wfmId : String) (subType : Option SubType) (quantity : Int) (orderType : OrderType)
    (operations : OperationSet) :
    (handleWfmItem wfmId subType quantity orderType operations).run.Uses Op.sparesItems := by
  refine Uses.bindE (spares_call trivial) fun app => ?_
  simp only
  split
  · exact spares_pure _
  · split
    · exact spares_pure _
    · exact spares_send ..

theorem spares_transaction (tx : Transaction) (flags : OperationSet) :
    (handleTransaction parse tx flags).run.Uses Op.sparesItems := by
  refine Uses.bindE ?_ fun tx => Uses.bindE (spares_ofExcept _) fun dated => spares_call rfl
  rw [withFigures]
  split
  · refine Uses.bindE ?_ fun _ => spares_ofExcept _
    exact Uses.bindE (spares_call trivial) fun _ => spares_call trivial
  · exact spares_pure _

theorem spares_book {price : Int} {lifted : Except Stop Transaction} {orderType : OrderType}
    {flags operations noPrice : OperationSet} :
    (if price ≤ 0 then pure noPrice
      else do
        let tx ← ofExcept lifted
        let _ ← handleTransaction parse (asSale orderType tx) flags
        return operations : Handler OperationSet).run.Uses Op.sparesItems := by
  split
  · exact spares_pure _
  · exact Uses.bindE (spares_ofExcept _) fun _ => Uses.bindE (spares_transaction ..) fun _ => spares_pure _

theorem spares_settleStock (item : CreateItem) (userName : String) (orderType : OrderType)
    (flags operations : OperationSet) :
    (settleStock parse item userName orderType flags operations).run.Uses Op.sparesItems := by
  refine Uses.bindE ?_ fun _ => spares_book
  rw [syncStock]
  split
  · exact Uses.bindE (spares_wfm ..) fun _ => spares_pure _
  · exact spares_pure _

theorem spares_settleWishList (item : CreateItem) (userName : String) (orderType : OrderType)
    (flags operations : OperationSet) :
    (settleWishList parse item userName orderType flags operations).run.Uses Op.sparesItems := by
  rw [settleWishList]
  split
  · exact spares_pure _
  · refine Uses.bindE ?_ fun _ => spares_book
    exact Uses.bindE (spares_wfm ..) fun _ => spares_pure _

end Spares

/-- A handler that returns has validated the item and changed the items as its mutation did. -/
theorem of_mutation_ok {α : Type} {validate : Handler CreateItem} {checked : Except Stop CreateItem}
    (mutate : CreateItem → Handler (OperationSet × α))
    (settle : CreateItem → OperationSet → Handler OperationSet) {r : OperationSet × α}
    (hvalid : Goes sv validate w [.cacheClient] checked w)
    (hspares : ∀ item operations, (settle item operations).run.Uses Op.sparesItems)
    (h : (validate >>= fun item => mutate item >>= fun m => settle item m.1 >>= fun r =>
      pure (r, m.2) : Handler (OperationSet × α)).run.eval sv.answer w = (.ok r, w')) :
    ∃ item m w₁, checked = .ok item ∧ (mutate item).run.eval sv.answer w = (.ok m, w₁) ∧
      w'.items = w₁.items := by
  obtain ⟨item, _, hrun, h⟩ := eval_bindE_eq_ok _ h
  obtain ⟨hchecked, rfl⟩ := hvalid.of_eval_ok hrun
  obtain ⟨m, w₁, hmutate, h⟩ := eval_bindE_eq_ok _ h
  obtain ⟨operations, w₂, hsettle, h⟩ := eval_bindE_eq_ok _ h
  refine ⟨item, m, w₁, hchecked, hmutate, ?_⟩
  have hkept := Uses.kept sv.answer (hspares item m.1) (fun o w ho => answer_items o w ho) w₁
  rw [hsettle] at hkept
  cases h
  exact hkept

/-! ### Counting units -/

section Units

variable (url : String) (subType : Option SubType)

def WishListItem.units (row : WishListItem) : Int :=
  if row.wfmUrl = url ∧ row.subType = subType then row.quantity else 0

def StockItem.units (row : StockItem) : Int :=
  if row.wfmUrl = url ∧ row.subType = subType then row.owned else 0

/-- The units of an item the wish list asks for. -/
def World.wished (w : World) : Int := (w.tables .wishList).total (WishListItem.units url subType)

/-- The units of an item in stock. -/
def World.owned (w : World) : Int := (w.tables .stockItem).total (StockItem.units url subType)

end Units

theorem WishListItem.units_of {url : String} {subType : Option SubType} {row : WishListItem}
    (h : row.wfmUrl = url ∧ row.subType = subType) : row.units url subType = row.quantity := if_pos h

theorem StockItem.units_of {url : String} {subType : Option SubType} {row : StockItem}
    (h : row.wfmUrl = url ∧ row.subType = subType) : row.units url subType = row.owned := if_pos h

/-- The units by which the wish list went down and the stock went up. -/
def World.taken (w w' : World) (url : String) (subType : Option SubType) : Int :=
  (w.wished url subType - w'.wished url subType) + (w'.owned url subType - w.owned url subType)

theorem wished_congr (h : w'.items = w.items) (url : String) (subType : Option SubType) :
    w'.wished url subType = w.wished url subType := by
  have htable : w'.tables .wishList = w.tables .wishList := congrArg Prod.snd h
  rw [World.wished, htable, World.wished]

theorem owned_congr (h : w'.items = w.items) (url : String) (subType : Option SubType) :
    w'.owned url subType = w.owned url subType := by
  have htable : w'.tables .stockItem = w.tables .stockItem := congrArg Prod.fst h
  rw [World.owned, htable, World.owned]

theorem rowOf_matches {t : TableName} {url : String} {subType : Option SubType} {row : Row t}
    (h : w.rowOf t url subType = some row) : rowUrl t row = url ∧ rowSubType t row = subType := by
  have hmem := List.mem_filter.mp (List.mem_of_find?_eq_some h)
  have hsub := List.find?_some h
  exact ⟨of_decide_eq_true hmem.2, of_decide_eq_true hsub⟩

theorem rowOf_none {t : TableName} {url : String} {subType : Option SubType}
    (h : w.rowOf t url subType = none) {row : Row t} (hrow : row ∈ (w.tables t).rows)
    (hurl : rowUrl t row = url) : rowSubType t row ≠ subType := by
  intro hsub
  refine of_decide_eq_false ?_ hsub
  exact Bool.eq_false_iff.mpr
    (List.find?_eq_none.mp h row (List.mem_filter.mpr ⟨hrow, decide_eq_true hurl⟩))

theorem lookup_nextId (w : World) (t : TableName) : (w.tables t).lookup (w.nextId t) = none := by
  rw [Table.lookup_eq_none]
  intro hid
  obtain ⟨row, hrow, hid⟩ := List.mem_map.mp hid
  exact absurd hid (ne_of_lt (lt_nextId hrow))

/-! ### What each mutation takes -/

section Mutations

variable {item : CreateItem}

theorem perUnit_item (stock : StockItem) :
    ((StockItemMutation.perUnit stock).wfmUrl = stock.wfmUrl ∧
      (StockItemMutation.perUnit stock).subType = stock.subType) ∧
        (StockItemMutation.perUnit stock).owned = stock.owned := by
  rw [StockItemMutation.perUnit]
  split <;> exact ⟨⟨rfl, rfl⟩, rfl⟩

theorem addition_owned {m : OperationSet × StockItem}
    (hfits : ∀ row : StockItem, stockRow w item = some row → InI64 (row.owned + item.quantity))
    (h : (mutateStock item .buy).run.eval sv.answer w = (.ok m, w')) :
    w'.owned item.wfmUrl item.subType = w.owned item.wfmUrl item.subType + item.quantity ∧
      w'.tables .wishList = w.tables .wishList := by
  cases hrow : stockRow w item with
  | none =>
      have hgoes : Goes sv (mutateStock item .buy) w (additionPlan w item)
          (.ok (["ItemBuy_" ++ Change.created.asStr], inserted .stockItem
            (StockItemMutation.perUnit (.new item)) (w.nextId .stockItem) sv.now))
          (w.insert .stockItem (StockItemMutation.perUnit (.new item)) sv.now) :=
        (goes_added_none hrow).andThen (.pure _)
      obtain ⟨-, rfl⟩ := hgoes.of_eval_ok h
      refine ⟨?_, tables_insert_of_ne (by decide) _ _⟩
      have htable : (w.insert .stockItem (StockItemMutation.perUnit (.new item)) sv.now).tables .stockItem =
          (w.tables .stockItem).insertOrReplace (inserted .stockItem
            (StockItemMutation.perUnit (.new item)) (w.nextId .stockItem) sv.now) :=
        World.setTable_self w .stockItem _
      obtain ⟨hitem, howned⟩ := perUnit_item (.new item)
      have hunits : (inserted .stockItem (StockItemMutation.perUnit (.new item)) (w.nextId .stockItem)
          sv.now : StockItem).units item.wfmUrl item.subType = item.quantity :=
        (StockItem.units_of hitem).trans howned
      rw [World.owned, htable, Table.total_insertOrReplace, hunits, World.owned]
      rw [rowId_inserted]
      exact lookup_nextId ..
  | some row =>
      have hlookup : (w.tables .stockItem).lookup row.id = some row := lookup_rowOf hrow
      cases haverage : StockItemMutation.weightedAverage row (.new item) with
      | error stop =>
          have hend := (addition_panics hrow haverage).of_eval_ok h
          cases hend.1
      | ok average =>
          have hgoes : Goes sv (mutateStock item .buy) w (additionPlan w item)
              (.ok (["ItemBuy_" ++ Change.updated.asStr],
                applyTo .stockItem ⟨some average, some (row.grown item.quantity)⟩ sv.now row))
              (w.updateRow .stockItem row.id ⟨some average, some (row.grown item.quantity)⟩ sv.now) :=
            (goes_added_some hrow haverage).andThen (.pure _)
          obtain ⟨-, rfl⟩ := hgoes.of_eval_ok h
          refine ⟨?_, World.setTable_of_ne _ (by decide) _⟩
          have hitem : row.wfmUrl = item.wfmUrl ∧ row.subType = item.subType := rowOf_matches hrow
          have hset : (applyTo .stockItem ⟨some average, some (row.grown item.quantity)⟩ sv.now row :
              StockItem).units item.wfmUrl item.subType = row.grown item.quantity := StockItem.units_of hitem
          rw [World.owned, World.updateRow, World.setTable_self, Table.total_update hlookup, hset,
            StockItem.grown, wrapI64_of_inI64 (hfits row hrow), StockItem.units_of hitem, World.owned]
          omega

theorem purchase_wished {row : WishListItem} (h : wishRow w item = some row) (hq : 1 ≤ item.quantity)
    (hfits : InI64 (row.quantity - item.quantity)) :
    (bought sv w item row).wished item.wfmUrl item.subType =
        w.wished item.wfmUrl item.subType - min item.quantity row.quantity ∧
      (bought sv w item row).tables .stockItem = w.tables .stockItem := by
  have hlookup : (w.tables .wishList).lookup (wishId w item) = some row := by
    rw [wishId, h]
    exact lookup_rowOf h
  have hitem : row.wfmUrl = item.wfmUrl ∧ row.subType = item.subType := rowOf_matches h
  have hleft : row.left item.quantity = row.quantity - item.quantity := by
    rw [WishListItem.left, orOne, if_neg (by omega), wrapI64_of_inI64 hfits]
  rw [bought, hleft]
  split
  · refine ⟨?_, World.setTable_of_ne _ (by decide) _⟩
    rw [World.wished, World.deleteRow, World.setTable_self, Table.total_delete hlookup,
      WishListItem.units_of hitem, min_eq_right (by omega), World.wished]
  · refine ⟨?_, World.setTable_of_ne _ (by decide) _⟩
    have hset : (applyTo .wishList ⟨some (row.quantity - item.quantity)⟩ sv.now row :
        WishListItem).units item.wfmUrl item.subType = row.quantity - item.quantity :=
      WishListItem.units_of hitem
    rw [World.wished, World.updateRow, World.setTable_self, Table.total_update hlookup, hset,
      WishListItem.units_of hitem, min_eq_left (by omega), World.wished]
    omega

/-- Only a row that matches is found: ids start at 1. -/
theorem boughtRow_eq_wishRow (hids : ∀ row ∈ (w.tables .wishList).rows, 0 < rowId .wishList row) :
    boughtRow w item = wishRow w item := by
  cases hrow : wishRow w item with
  | none =>
      rw [boughtRow, wishId, hrow, Option.elim_none, Table.lookup_eq_none]
      intro hid
      obtain ⟨row, hmem, hid⟩ := List.mem_map.mp hid
      have hpos := hids row hmem
      omega
  | some row =>
      rw [boughtRow, wishId, hrow]
      exact lookup_rowOf hrow

end Mutations

/-! ### One item of a purchase -/

/-- The wish list and the stock do not validate alike, but find the same item. -/
theorem asStock_wfmUrl {create item : CreateItem} {cache : String → Option CacheItem} {cached : CacheItem}
    (hcached : cache create.raw = some cached) (h : create.asStock cache = .ok item) :
    item.wfmUrl = cached.wfmUrl ∧ item.subType = create.subType ∧ item.quantity = create.quantity := by
  simp only [CreateItem.asStock, getBy, hcached, Bind.bind, Except.bind] at h
  cases hname : uniqueName cached create.subType with
  | some name =>
      rw [hname] at h
      cases h
      exact ⟨rfl, rfl, rfl⟩
  | none =>
      rw [hname] at h
      cases h

theorem asWish_cached {create item : CreateItem} {cache : String → Option CacheItem}
    (h : create.asWish cache = .ok item) : ∃ cached, cache create.raw = some cached ∧
      item = create.filled cached cached.uniqueName := by
  cases hcached : cache create.raw with
  | none =>
      simp only [CreateItem.asWish, getBy, hcached, failed] at h
      cases h
  | some cached =>
      simp only [CreateItem.asWish, getBy, hcached] at h
      cases h
      exact ⟨cached, rfl, rfl⟩

/-- The count that a purchase leads to, of the row it goes to, is an `i64`. -/
def World.CountFits (w : World) (url : String) (subType : Option SubType) (quantity : Int) : Prop :=
  match w.rowOf .wishList url subType with
  | some row => InI64 ((row : WishListItem).quantity - quantity)
  | none => ∀ row : StockItem, w.rowOf .stockItem url subType = some row → InI64 (row.owned + quantity)

/-- Everything a purchase books is on the wish list if a row matches, and in the stock if none does. -/
theorem purchase_books {item : ResolvedItem} {player detectedAt : String}
    (hids : ∀ row ∈ (w.tables .wishList).rows, 0 < rowId .wishList row) (hq : 1 ≤ item.quantity)
    (hfits : ∀ cached, sv.tradableItem item.slug = some cached →
      w.CountFits cached.wfmUrl item.subType item.quantity)
    (h : (applyItem parse .purchase item player detectedAt).run.eval sv.answer w = (.ok (), w')) :
    ∃ cached, sv.tradableItem item.slug = some cached ∧
      match w.rowOf .wishList cached.wfmUrl item.subType with
      | some row =>
          w'.wished cached.wfmUrl item.subType =
              w.wished cached.wfmUrl item.subType - min item.quantity (row : WishListItem).quantity ∧
            w'.owned cached.wfmUrl item.subType = w.owned cached.wfmUrl item.subType
      | none =>
          w'.wished cached.wfmUrl item.subType = w.wished cached.wfmUrl item.subType ∧
            w'.owned cached.wfmUrl item.subType = w.owned cached.wfmUrl item.subType + item.quantity := by
  obtain ⟨⟨operations, model⟩, w₁, hwish, h⟩ := eval_bindE_eq_ok _ h
  obtain ⟨valid, m, w₂, hvalid, hmutate, hsame⟩ := of_mutation_ok (mutateWishList · .buy)
    (settleWishList parse · player .buy (wishListFlags detectedAt) ·)
    (goes_validateWishList (createItem item)) (fun _ _ => spares_settleWishList ..) hwish
  obtain ⟨cached, hcached, rfl⟩ := asWish_cached hvalid
  refine ⟨cached, hcached, ?_⟩
  have hcount := hfits cached hcached
  rw [World.CountFits] at hcount
  have hrow : boughtRow w ((createItem item).filled cached cached.uniqueName) =
      wishRow w ((createItem item).filled cached cached.uniqueName) := boughtRow_eq_wishRow hids
  cases hfound : w.rowOf .wishList cached.wfmUrl item.subType with
  | some row =>
      have hwished : wishRow w ((createItem item).filled cached cached.uniqueName) = some row := hfound
      rw [hwished] at hrow
      have hstays := wished_stays hvalid (by rw [hrow]; rfl) hwish
      simp only [hstays, Bool.false_eq_true, if_false] at h
      cases h
      obtain ⟨-, rfl⟩ := (purchase_found hrow).of_eval_ok hmutate
      rw [hfound] at hcount
      obtain ⟨htaken, hstock⟩ := @purchase_wished sv w _ row hwished hq hcount
      refine ⟨(wished_congr hsame ..).trans htaken, (owned_congr hsame ..).trans ?_⟩
      rw [World.owned, hstock, World.owned]
  | none =>
      have hwished : wishRow w ((createItem item).filled cached cached.uniqueName) = none := hfound
      rw [hwished] at hrow
      obtain ⟨operations', model', hgoes, hhas⟩ :=
        @goes_notWished parse sv w (createItem item) _ player detectedAt hvalid hrow
      obtain ⟨hout, rfl⟩ := hgoes.of_eval_ok hwish
      cases hout
      simp only [hhas, if_true] at h
      obtain ⟨r, w₃, hstock, h⟩ := eval_bindE_eq_ok _ h
      cases h
      obtain ⟨valid', m', w₄, hvalid', hmutate', hsame'⟩ :=
        of_mutation_ok (mutateStock · .buy)
          (settleStock parse · player .buy (itemFlags .purchase detectedAt) ·)
          (goes_validateStock (createItem item)) (fun _ _ => spares_settleStock ..) hstock
      obtain ⟨hurl, hsub, hquantity⟩ := asStock_wfmUrl hcached hvalid'
      rw [hfound] at hcount
      obtain ⟨howned, hlist⟩ := addition_owned (fun row hrow => by
        rw [stockRow, hurl, hsub] at hrow
        rw [hquantity]
        exact hcount row hrow) hmutate'
      rw [hurl, hsub, hquantity] at howned
      refine ⟨(wished_congr hsame' ..).trans ?_, (owned_congr hsame' ..).trans howned⟩
      rw [World.wished, hlist, World.wished]

/-- A purchase of `quantity` units books all of them, unless a wish-list row matches that asks for
fewer: then it books those. No count is meant to leave the `i64` range. -/
theorem purchase_taken {item : ResolvedItem} {player detectedAt : String}
    (hids : ∀ row ∈ (w.tables .wishList).rows, 0 < rowId .wishList row) (hq : 1 ≤ item.quantity)
    (hfits : ∀ cached, sv.tradableItem item.slug = some cached →
      w.CountFits cached.wfmUrl item.subType item.quantity)
    (h : (applyItem parse .purchase item player detectedAt).run.eval sv.answer w = (.ok (), w')) :
    ∃ cached, sv.tradableItem item.slug = some cached ∧
      w.taken w' cached.wfmUrl item.subType =
        match w.rowOf .wishList cached.wfmUrl item.subType with
        | some row => min item.quantity (row : WishListItem).quantity
        | none => item.quantity := by
  obtain ⟨cached, hcached, hbooks⟩ := purchase_books hids hq hfits h
  refine ⟨cached, hcached, ?_⟩
  rw [World.taken]
  cases hrow : w.rowOf .wishList cached.wfmUrl item.subType with
  | some row =>
      simp only [hrow] at hbooks ⊢
      rw [hbooks.1, hbooks.2]
      omega
  | none =>
      simp only [hrow] at hbooks ⊢
      rw [hbooks.1, hbooks.2]
      omega

def formaWish (quantity : Int) : WishListItem :=
  ⟨1, "id-forma", "forma", "Forma", "/Forma", none, quantity, none, [], .pending, 0, 0, false, none⟩

theorem formaRow_alone : ([formaRow].map (rowId .stockItem)).Nodup := List.nodup_singleton _

def wishWorld (quantity : Int) : World where
  tables
    | .stockItem => ⟨[formaRow], formaRow_alone⟩
    | .wishList => ⟨[formaWish quantity], List.nodup_singleton _⟩
    | .transaction => .empty
  sequences _ := 1
  orders := ⟨[], []⟩

def formaBought : ResolvedItem := { formaSold with quantity := 2 }

/-- Nothing fails. -/
def openServices : Services := { lockedServices with fails := fun _ => none }

def afterPurchase (quantity : Int) : World :=
  ((applyItem (fun _ => .ok 5) .purchase formaBought "Player" "2024-01-01T00:00:00Z").run.eval
    openServices.answer (wishWorld quantity)).2

theorem purchase_taken_forma : (wishWorld 3).taken (afterPurchase 3) "forma" none = 2 := by
  have hrun : (applyItem (fun _ => .ok 5) .purchase formaBought "Player" "2024-01-01T00:00:00Z").run.eval
      openServices.answer (wishWorld 3) = (.ok (), afterPurchase 3) :=
    Prod.ext (by decide +kernel) rfl
  have hfits : ∀ cached, openServices.tradableItem formaBought.slug = some cached →
      (wishWorld 3).CountFits cached.wfmUrl formaBought.subType formaBought.quantity := by
    intro cached hcached
    cases hcached
    exact ⟨by decide, by decide⟩
  obtain ⟨cached, hcached, htaken⟩ := purchase_taken (by decide) (by decide) hfits hrun
  cases hcached
  exact htaken

/-- A server that owns `owned` formas and wishes for none. -/
def stockWorld (owned : Int) : World where
  tables
    | .stockItem => ⟨[{ formaRow with owned }], List.nodup_singleton _⟩
    | .wishList => .empty
    | .transaction => .empty
  sequences _ := 1
  orders := ⟨[], []⟩

def afterStocked (owned : Int) : World :=
  ((applyItem (fun _ => .ok 5) .purchase formaBought "Player" "2024-01-01T00:00:00Z").run.eval
    openServices.answer (stockWorld owned)).2

/-- Two are bought of an item the wish list asks for once: the second is booked nowhere. Two more than an `i64`
counts are booked as a count below zero. -/
theorem surplus_not_booked :
    ((applyItem (fun _ => .ok 5) .purchase formaBought "Player" "2024-01-01T00:00:00Z").run.eval
          openServices.answer (wishWorld 1) = (.ok (), afterPurchase 1) ∧
        (wishWorld 1).taken (afterPurchase 1) "forma" none ≠ formaBought.quantity) ∧
      (applyItem (fun _ => .ok 5) .purchase formaBought "Player" "2024-01-01T00:00:00Z").run.eval
          openServices.answer (stockWorld i64Max) = (.ok (), afterStocked i64Max) ∧
        (stockWorld i64Max).taken (afterStocked i64Max) "forma" none ≠ formaBought.quantity := by
  refine ⟨⟨Prod.ext (by decide +kernel) rfl, ?_⟩, Prod.ext (by decide +kernel) rfl, ?_⟩
  · decide +kernel
  · decide +kernel

end Quantframe.Handlers
