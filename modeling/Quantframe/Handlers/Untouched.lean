import Quantframe.Handlers.Settlements

/-!
# What a failed trade item leaves behind

A handler that fails leaves the tables as they were unless it had already changed the stock or the
wish list. `Interrupted` says from the tables, the item and the operations that fail when that is so.
-/

namespace Quantframe.Handlers

open Lib Prog
open Trades (SubType DateTime Error Direction ResolvedItem)
open Market (OrderList)

variable {parse : String → Except String DateTime} {sv : Services} {w w' : World}

/-! ### Where a handler is left halfway -/

/-- Something fails once the mutation has taken effect. -/
structure Interrupted (sv : Services) (mutation : List Op) (changes : Prop) (settlement : List Op)
    (fails : Prop) : Prop where
  validated : sv.grants .cacheClient
  mutated : ∀ o ∈ mutation, sv.grants o
  changed : changes
  failed : (∃ o ∈ settlement, ¬ sv.grants o) ∨ fails

/-- Both handlers: a validation that only reads, the mutation, the rest. -/
theorem failsHalfway_mutation {α : Type} {validate : Handler CreateItem} {item : CreateItem}
    {mutate : CreateItem → Handler (OperationSet × α)}
    {settle : CreateItem → OperationSet → Handler OperationSet} {mutation settlement : List Op}
    {operations : OperationSet} {changes fails : Prop} {returns : OperationSet → Prop}
    (hvalid : Goes sv validate w [.cacheClient] (.ok item) w)
    (hmutate : Mutates sv (mutate item) w mutation operations changes)
    (hsettle : ∀ w', w'.orders = w.orders → w'.tables .transaction = w.tables .transaction →
      Settles sv (settle item operations) w' settlement fails returns) :
    FailsHalfway sv.answer IsErr World.tables
        (validate >>= fun item => mutate item >>= fun m => settle item m.1 >>= fun r => pure (r, m.2)) w ↔
      Interrupted sv mutation changes settlement fails := by
  obtain ⟨model, w', hgoes, horders, htx, hchanges⟩ := hmutate
  obtain ⟨out, w'', hrest, herr, hkept, _⟩ := hsettle w' horders htx
  have hends : ∃ out', Goes sv (settle item operations >>= fun r => pure (r, model)) w' settlement out'
      w'' ∧ ((∃ e, IsErr e ∧ out' = .error e) ↔ fails) ∧ ∀ e, out' = .error e → w''.tables = w'.tables := by
    cases out with
    | ok r =>
        refine ⟨.ok (r, model), hrest.andThen (.pure _), ?_, ?_⟩
        · rw [← herr]
          simp only [reduceCtorEq]
        · simp only [reduceCtorEq, false_implies, implies_true]
    | error e =>
        refine ⟨.error e, hrest.bind_error, ?_, fun _ _ => hkept e rfl⟩
        rw [← herr]
        simp only [Except.error.injEq]
  obtain ⟨out', hrest', herr', hkept'⟩ := hends
  rw [hvalid.failsHalfway_bind_iff, hgoes.failsHalfway_iff hrest' hkept', herr', hchanges]
  constructor
  · rintro ⟨hcache, hplan, hchange, hfail⟩
    exact ⟨hcache _ List.mem_cons_self, hplan, hchange, hfail⟩
  · rintro ⟨hcache, hplan, hchange, hfail⟩
    exact ⟨fun o ho => List.mem_singleton.mp ho ▸ hcache, hplan, hchange, hfail⟩

section Conditions

variable (parse) (sv w) (create : CreateItem) (userName : String) (orderType : OrderType)
  (flags : OperationSet)

def stockMutation (item : CreateItem) : List Op :=
  match orderType with
  | .sell => salePlan w item
  | .buy => additionPlan w item

def stockOperations (item : CreateItem) : OperationSet :=
  match orderType with
  | .sell => ["ItemSell_" ++ (saleChange w item).asStr]
  | .buy => ["ItemBuy_" ++ (additionChange w item).asStr]

def StockChanges (item : CreateItem) : Prop :=
  match orderType with
  | .sell => SaleChanges sv w item
  | .buy => AdditionChanges sv w item

/-- The item is known, its stock row changes, and the market order or the transaction fails. -/
def StockInterrupted : Prop :=
  ∃ item, create.asStock sv.tradableItem = .ok item ∧
    Interrupted sv (stockMutation w orderType item) (StockChanges sv w orderType item)
      (stockSettlement parse sv w item userName orderType flags (stockOperations w orderType item))
      (Unbookable parse w flags item.price (booked item userName orderType))

def wishListMutation (item : CreateItem) : List Op :=
  match orderType with
  | .buy => purchasePlan w item
  | .sell => wishPlan w item

def wishListOperations (item : CreateItem) : OperationSet :=
  match orderType with
  | .buy => ["WishListItemBought_" ++ (purchaseChange w item).asStr]
  | .sell => ["WishListItemSold_" ++ (wishChange w item).asStr]

def WishListChanges (item : CreateItem) : Prop :=
  match orderType with
  | .buy => PurchaseChanges sv w item
  | .sell => WishChanges sv w item

/-- The same for the wish list, which an early return may end before. -/
def WishListInterrupted : Prop :=
  ∃ item, create.asWish sv.tradableItem = .ok item ∧
    Interrupted sv (wishListMutation w orderType item) (WishListChanges sv w orderType item)
      (wishListSettlement parse sv w item userName orderType flags (wishListOperations w orderType item))
      (¬ returnsEarly flags (wishListOperations w orderType item) = true ∧
        Unbookable parse w flags item.price (booked item userName orderType))

end Conditions

theorem goes_validateStock (create : CreateItem) :
    Goes sv create.validateStock w [.cacheClient] (create.asStock sv.tradableItem) w :=
  Performs.andThen (goes_call rfl) (goes_ofExcept _)

theorem goes_validateWishList (create : CreateItem) :
    Goes sv create.validateWishList w [.cacheClient] (create.asWish sv.tradableItem) w :=
  Performs.andThen (goes_call rfl) (goes_ofExcept _)

theorem getBy_bind_ok {β : Type} {cache : String → Option CacheItem} {id : String}
    {f : CacheItem → Except Stop β} {b : β} (h : getBy cache id >>= f = .ok b) :
    ∃ cached, f cached = .ok b := by
  cases hfound : cache id with
  | none =>
      simp only [getBy, hfound, failed] at h
      cases h
  | some cached =>
      simp only [getBy, hfound] at h
      exact ⟨cached, h⟩

theorem isValidated_of_asStock {create item : CreateItem} {cache : String → Option CacheItem}
    (h : create.asStock cache = .ok item) : item.isValidated = true := by
  obtain ⟨cached, h⟩ := getBy_bind_ok h
  split at h
  · cases h
    rfl
  · cases h

theorem isValidated_of_asWish {create item : CreateItem} {cache : String → Option CacheItem}
    (h : create.asWish cache = .ok item) : item.isValidated = true := by
  obtain ⟨cached, h⟩ := getBy_bind_ok h
  cases h
  rfl

theorem stockSettlement_congr (horders : w'.orders = w.orders)
    (htx : w'.tables .transaction = w.tables .transaction) (item : CreateItem) (userName : String)
    (orderType : OrderType) (flags operations : OperationSet) :
    stockSettlement parse sv w' item userName orderType flags operations =
      stockSettlement parse sv w item userName orderType flags operations := by
  simp only [stockSettlement, horders, bookPlan_congr htx]

theorem wishListSettlement_congr (horders : w'.orders = w.orders)
    (htx : w'.tables .transaction = w.tables .transaction) (item : CreateItem) (userName : String)
    (orderType : OrderType) (flags operations : OperationSet) :
    wishListSettlement parse sv w' item userName orderType flags operations =
      wishListSettlement parse sv w item userName orderType flags operations := by
  simp only [wishListSettlement, horders, bookPlan_congr htx]

/-! ### The two handlers -/

/-- An `Err` leaves the three tables as they were before the call. -/
def LeavesUntouched {α : Type} (sv : Services) (p : Handler α) (w : World) : Prop :=
  ∀ e, (p.run.eval sv.answer w).1 = .error (.err e) → (p.run.eval sv.answer w).2.tables = w.tables

theorem leavesUntouched_iff {α : Type} {p : Handler α} :
    LeavesUntouched sv p w ↔ ¬ FailsHalfway sv.answer IsErr World.tables p w := by
  constructor
  · rintro h ⟨stop, ⟨e, rfl⟩, herr, hview⟩
    exact hview (h e herr)
  · intro h e herr
    by_contra hview
    exact h ⟨_, ⟨e, rfl⟩, herr, hview⟩

theorem item_interrupted_iff (create : CreateItem) (userName : String) (orderType : OrderType)
    (flags : OperationSet) :
    FailsHalfway sv.answer IsErr World.tables
        (handleItemByEntity parse create userName orderType flags) w ↔
      StockInterrupted parse sv w create userName orderType flags := by
  have hvalidate := @goes_validateStock sv w create
  cases hvalid : create.asStock sv.tradableItem with
  | error e =>
      rw [hvalid] at hvalidate
      simp only [StockInterrupted, hvalid, reduceCtorEq, false_and, exists_false, iff_false]
      exact hvalidate.bind_error.not_failsHalfway fun _ _ => rfl
  | ok item =>
      rw [hvalid] at hvalidate
      simp only [StockInterrupted, hvalid, Except.ok.injEq, exists_eq_left']
      have hsettle : ∀ w', w'.orders = w.orders → w'.tables .transaction = w.tables .transaction →
          Settles sv
            (settleStock parse item userName orderType flags (stockOperations w orderType item)) w'
            (stockSettlement parse sv w item userName orderType flags
              (stockOperations w orderType item))
            (Unbookable parse w flags item.price (booked item userName orderType)) fun _ => True := by
        intro w' horders htx
        rw [← stockSettlement_congr horders htx, ← unbookable_congr htx]
        exact settles_stock _ _ _ _ _ _ _ (isValidated_of_asStock hvalid)
      cases orderType with
      | sell => exact failsHalfway_mutation hvalidate (sale_mutates sv w item) hsettle
      | buy =>
          by_cases hpanic : ∀ row, stockRow w item = some row →
              ∃ average, StockItemMutation.weightedAverage row (.new item) = .ok average
          · exact failsHalfway_mutation hvalidate (addition_mutates sv w item hpanic) hsettle
          · push Not at hpanic
            obtain ⟨row, hrow, hpanic⟩ := hpanic
            cases haverage : StockItemMutation.weightedAverage row (.new item) with
            | ok average => exact absurd haverage (hpanic average)
            | error stop =>
                have hstops : Goes sv (handleItemByEntity parse create userName .buy flags) w
                    ([.cacheClient] ++ additionPlan w item) (.error stop) w := by
                  refine hvalidate.bind rfl ?_
                  exact (addition_panics hrow haverage).bind_error
                constructor
                · intro h
                  exact absurd h (hstops.not_failsHalfway fun _ _ => rfl)
                · intro h
                  obtain ⟨average, hok, _⟩ : ∃ average, StockItemMutation.weightedAverage row
                      (.new item) = .ok average ∧ _ := by
                    simpa only [StockChanges, AdditionChanges, hrow] using h.changed
                  exact absurd hok (hpanic average)

theorem wishList_mutates (sv : Services) (w : World) (orderType : OrderType) (item : CreateItem) :
    Mutates sv (mutateWishList item orderType) w (wishListMutation w orderType item)
      (wishListOperations w orderType item) (WishListChanges sv w orderType item) := by
  cases orderType with
  | buy => exact purchase_mutates sv w item
  | sell => exact wish_mutates sv w item

theorem settles_wishListAfter {item : CreateItem} (hvalid : item.isValidated = true) (userName : String)
    (orderType : OrderType) (flags operations : OperationSet) (horders : w'.orders = w.orders)
    (htx : w'.tables .transaction = w.tables .transaction) :
    Settles sv (settleWishList parse item userName orderType flags operations) w'
      (wishListSettlement parse sv w item userName orderType flags operations)
      (¬ returnsEarly flags operations = true ∧
        Unbookable parse w flags item.price (booked item userName orderType))
      fun r => OperationSet.has r wishListNotFound = OperationSet.has operations wishListNotFound := by
  rw [← wishListSettlement_congr horders htx, ← unbookable_congr htx]
  exact settles_wishList _ _ _ _ _ _ _ hvalid

theorem wishList_interrupted_iff (create : CreateItem) (userName : String) (orderType : OrderType)
    (flags : OperationSet) :
    FailsHalfway sv.answer IsErr World.tables
        (handleWishListByEntity parse create userName orderType flags) w ↔
      WishListInterrupted parse sv w create userName orderType flags := by
  have hvalidate := @goes_validateWishList sv w create
  cases hvalid : create.asWish sv.tradableItem with
  | error e =>
      rw [hvalid] at hvalidate
      simp only [WishListInterrupted, hvalid, reduceCtorEq, false_and, exists_false, iff_false]
      exact hvalidate.bind_error.not_failsHalfway fun _ _ => rfl
  | ok item =>
      rw [hvalid] at hvalidate
      simp only [WishListInterrupted, hvalid, Except.ok.injEq, exists_eq_left']
      exact failsHalfway_mutation hvalidate (wishList_mutates sv w orderType item) fun w' horders htx =>
        settles_wishListAfter (isValidated_of_asWish hvalid) userName orderType flags _ horders htx

/-! ### One item of a trade -/

/-- The purchase is not on the wish list, so it goes to the stock. -/
def NotWished (sv : Services) (w : World) (create : CreateItem) : Prop :=
  ∃ item, create.asWish sv.tradableItem = .ok item ∧ boughtRow w item = none ∧
    sv.grants .cacheClient ∧ ∀ o ∈ purchasePlan w item, sv.grants o

def createItem (item : ResolvedItem) : CreateItem :=
  (CreateItem.new item.slug item.subType item.quantity).setBought item.price

/-- Something fails once the item has changed the stock or the wish list. -/
def ItemInterrupted (parse : String → Except String DateTime) (sv : Services) (w : World)
    (direction : Direction) (item : ResolvedItem) (player detectedAt : String) : Prop :=
  match direction with
  | .sale => StockInterrupted parse sv w (createItem item) player .sell (itemFlags .sale detectedAt)
  | .purchase =>
      WishListInterrupted parse sv w (createItem item) player .buy (wishListFlags detectedAt) ∨
        NotWished sv w (createItem item) ∧
          StockInterrupted parse sv w (createItem item) player .buy (itemFlags .purchase detectedAt)

theorem returnsEarly_wishListFlags (detectedAt : String) (operations : OperationSet) :
    returnsEarly (wishListFlags detectedAt) operations =
      OperationSet.endsWith operations "NotFound" := by
  have hfirst : LogParser.stripPrefix "ReturnOn:".toList "ReturnOn:NotFound".toList =
      some "NotFound".toList := by decide +kernel
  have hflags : ∃ rest, wishListFlags detectedAt = "ReturnOn:NotFound" :: rest := by
    simp only [wishListFlags, OperationSet.ofList, List.foldl_cons, List.foldl_nil]
    rw [show OperationSet.add [] "ReturnOn:NotFound" = ["ReturnOn:NotFound"] from rfl,
      OperationSet.add]
    split
    · exact ⟨[], rfl⟩
    · exact ⟨_, rfl⟩
  obtain ⟨rest, hflags⟩ := hflags
  simp only [returnsEarly, hflags, List.findSome?_cons, hfirst]
  rfl

/-- A purchase missing from the wish list is reported as such and nothing else is done. -/
theorem goes_notWished {create item : CreateItem} {player detectedAt : String}
    (hvalid : create.asWish sv.tradableItem = .ok item) (hrow : boughtRow w item = none) :
    ∃ operations model, Goes sv
      (handleWishListByEntity parse create player .buy (wishListFlags detectedAt)) w
      (.cacheClient :: purchasePlan w item) (.ok (operations, model)) w ∧
        OperationSet.has operations wishListNotFound = true := by
  have hvalidate := @goes_validateWishList sv w create
  rw [hvalid] at hvalidate
  have hearly : returnsEarly (wishListFlags detectedAt)
      ["WishListItemBought_" ++ Change.notFound.asStr] = true := by
    rw [returnsEarly_wishListFlags]
    decide +kernel
  refine ⟨OperationSet.add ["WishListItemBought_" ++ Change.notFound.asStr] "EarlyReturnFlagTriggered",
    .new item, hvalidate.bind_one ((purchase_notFound hrow).andThen ?_), by decide +kernel⟩
  simp only [settleWishList, hearly, if_true]
  exact .pure _

/-- A purchase found on the wish list never goes to the stock. -/
theorem wished_stays {create item : CreateItem} {player : String} {flags operations : OperationSet}
    {model : WishListItem} (hvalid : create.asWish sv.tradableItem = .ok item)
    (hrow : (boughtRow w item).isSome = true)
    (h : (handleWishListByEntity parse create player .buy flags).run.eval sv.answer w =
      (.ok (operations, model), w')) : OperationSet.has operations wishListNotFound = false := by
  have hvalidate := @goes_validateWishList sv w create
  rw [hvalid] at hvalidate
  obtain ⟨item', _, hrun, h⟩ := eval_bindE_eq_ok _ h
  obtain ⟨hitem, rfl⟩ := hvalidate.of_eval_ok hrun
  obtain rfl := Except.ok.inj hitem
  obtain ⟨model', w₁, hmutate, horders, htx, _⟩ := purchase_mutates sv w item
  obtain ⟨⟨operations', _⟩, _, hrun, h⟩ := eval_bindE_eq_ok _ h
  obtain ⟨hfound, rfl⟩ := hmutate.of_eval_ok hrun
  cases hfound
  obtain ⟨out, w₂, hsettle, _, _, hreturns⟩ := @settles_wishListAfter parse sv w w₁ item
    (isValidated_of_asWish hvalid) player .buy flags
    ["WishListItemBought_" ++ (purchaseChange w item).asStr] horders htx
  obtain ⟨operations'', _, hrun, h⟩ := eval_bindE_eq_ok _ h
  obtain ⟨hout, rfl⟩ := hsettle.of_eval_ok hrun
  cases h
  rw [hreturns _ hout]
  obtain ⟨row, hrow⟩ := Option.isSome_iff_exists.mp hrow
  simp only [purchaseChange, hrow]
  split <;> decide +kernel

theorem applyItem_interrupted_iff (direction : Direction) (item : ResolvedItem)
    (player detectedAt : String) :
    FailsHalfway sv.answer IsErr World.tables (applyItem parse direction item player detectedAt) w ↔
      ItemInterrupted parse sv w direction item player detectedAt := by
  cases direction with
  | sale =>
      refine (failsHalfway_andThen_iff fun _ _ _ => ⟨(), rfl⟩).trans ?_
      exact item_interrupted_iff (createItem item) player .sell (itemFlags .sale detectedAt)
  | purchase =>
      have hwish := @wishList_interrupted_iff parse sv w (createItem item) player .buy
        (wishListFlags detectedAt)
      have hstock := @item_interrupted_iff parse sv w (createItem item) player .buy
        (itemFlags .purchase detectedAt)
      simp only [ItemInterrupted]
      cases hvalid : (createItem item).asWish sv.tradableItem with
      | error e =>
          have hvalidate := @goes_validateWishList sv w (createItem item)
          rw [hvalid] at hvalidate
          have hnot : ¬ NotWished sv w (createItem item) := by
            rintro ⟨valid, hok, _⟩
            rw [hvalid] at hok
            cases hok
          rw [← hwish]
          simp only [hnot, false_and, or_false]
          refine failsHalfway_andThen_iff fun r w' hrun => ?_
          have herror := (hvalidate.bind_error (f := fun item => _)).of_eval_ok hrun
          cases herror.1
      | ok valid =>
          cases hrow : boughtRow w valid with
          | none =>
              obtain ⟨operations, model, hgoes, hhas⟩ :=
                @goes_notWished parse sv w (createItem item) valid player detectedAt hvalid hrow
              have hnot : ¬ WishListInterrupted parse sv w (createItem item) player .buy
                  (wishListFlags detectedAt) := by
                rintro ⟨valid', hok, hinterrupted⟩
                rw [hvalid] at hok
                cases hok
                have hchanged := hinterrupted.changed
                simp only [WishListChanges, PurchaseChanges, hrow] at hchanged
              refine hgoes.failsHalfway_bind_iff.trans ?_
              simp only [hhas, if_true, hnot, false_or]
              rw [← hstock]
              refine and_congr ?_ (failsHalfway_andThen_iff fun _ _ _ => ⟨(), rfl⟩)
              simp only [NotWished, hvalid, Except.ok.injEq, exists_eq_left', hrow, true_and,
                List.forall_mem_cons]
          | some row =>
              have hnot : ¬ NotWished sv w (createItem item) := by
                rintro ⟨valid', hok, hnone, _⟩
                rw [hvalid] at hok
                cases hok
                rw [hrow] at hnone
                cases hnone
              rw [← hwish]
              simp only [hnot, false_and, or_false]
              refine failsHalfway_andThen_iff fun r w' hrun => ⟨(), ?_⟩
              have hhas := wished_stays hvalid (by rw [hrow]; rfl) hrun
              simp only [hhas, Bool.false_eq_true, if_false]
              rfl

/-- A handler that returns `Err` has left the tables as they were, except when something failed after
its change to the stock or the wish list. -/
theorem failed_item_untouched_iff (parse : String → Except String DateTime) (sv : Services) (w : World) :
    (∀ create userName orderType flags,
        LeavesUntouched sv (handleItemByEntity parse create userName orderType flags) w ↔
          ¬ StockInterrupted parse sv w create userName orderType flags) ∧
      (∀ create userName orderType flags,
        LeavesUntouched sv (handleWishListByEntity parse create userName orderType flags) w ↔
          ¬ WishListInterrupted parse sv w create userName orderType flags) ∧
        ∀ direction item player detectedAt,
          LeavesUntouched sv (applyItem parse direction item player detectedAt) w ↔
            ¬ ItemInterrupted parse sv w direction item player detectedAt := by
  refine ⟨fun create userName orderType flags => ?_, fun create userName orderType flags => ?_,
    fun direction item player detectedAt => ?_⟩
  · rw [leavesUntouched_iff, item_interrupted_iff]
  · rw [leavesUntouched_iff, wishList_interrupted_iff]
  · rw [leavesUntouched_iff, applyItem_interrupted_iff]

/-! ### A sale whose transaction is not written -/

def formaRow : StockItem :=
  ⟨1, "id-forma", "forma", "Forma", "/Forma", none, 10, none, 2, false, .pending, [], 0, 0, none⟩

def formaWorld : World where
  tables
    | .stockItem => ⟨[formaRow], by decide⟩
    | .wishList => .empty
    | .transaction => .empty
  sequences _ := 1
  orders := ⟨[], []⟩

def formaSold : ResolvedItem := ⟨"Forma", "forma", "id-forma", "Forma", none, 1, 10, "name"⟩

/-- The transaction table cannot be written. -/
def lockedServices : Services where
  fails
    | .statement .transaction (.insert _ _) => some "database is locked"
    | _ => none
  now := 7
  reportToWfm := true
  tradableItem name :=
    if name = "forma" then some ⟨"Forma", "/Forma", "id-forma", "forma", 0, [], []⟩ else none

/-- One of two is sold: the call fails and one is left. -/
theorem sale_left_halfway :
    ¬ LeavesUntouched lockedServices
      (applyItem (fun _ => .ok 5) .sale formaSold "Player" "2024-01-01T00:00:00Z") formaWorld := by
  intro h
  have herr : ((applyItem (fun _ => .ok 5) .sale formaSold "Player" "2024-01-01T00:00:00Z").run.eval
      lockedServices.answer formaWorld).1 =
        .error (.err (fromDb "TransactionMutation:Create" "Failed to create Transaction" "")) := by
    decide +kernel
  have hrows := congrArg (fun tables : Tables => (tables .stockItem).rows) (h _ herr)
  revert hrows
  decide +kernel

end Quantframe.Handlers
