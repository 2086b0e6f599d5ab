import Quantframe.Handlers.Plans

/-!
# The market order and the transaction

What the handlers do once the stock or the wish list is changed: the plan, the ways it fails, and
that a failure there leaves the tables as it found them.
-/

namespace Quantframe.Handlers

open Lib Prog
open Trades (SubType DateTime Error Direction ResolvedItem)
open Market (OrderList)

variable (parse : String → Except String DateTime) {sv : Services} {w w' : World}

/-! ### The market order -/

/-- The market operations of a traded item. -/
def wfmPlan (reportToWfm : Bool) (orders : OrderList) (item : CreateItem) (orderType : OrderType)
    (operations : OperationSet) : List Op :=
  .appState ::
    if skipsBuy ⟨reportToWfm, orders⟩ orderType operations then []
    else
      match orders.findOrder item.wfmId (.fromEntity item.subType) orderType with
      | none => []
      | some order =>
          [(orderRequest reportToWfm (OperationSet.has operations "ShouldDelete") order
            item.quantity).op]

theorem orderRequest_cases (reporting delete : Bool) (order : Market.Order) (quantity : Int) :
    (∃ id n, (orderRequest reporting delete order quantity).op = .closeOrder id n) ∨
      (∃ id, (orderRequest reporting delete order quantity).op = .deleteOrder id) ∨
        ∃ id args, (orderRequest reporting delete order quantity).op = .updateOrder id args := by
  simp only [orderRequest]
  split
  · exact .inl ⟨_, _, rfl⟩
  · split
    · exact .inr (.inl ⟨_, rfl⟩)
    · exact .inr (.inr ⟨_, _, rfl⟩)

/-- A request changes the order cache and no table. -/
theorem goes_send {request : OrderRequest}
    (h : (∃ id n, request.op = .closeOrder id n) ∨ (∃ id, request.op = .deleteOrder id) ∨
      ∃ id args, request.op = .updateOrder id args) :
    ∃ w', Goes sv request.send w [request.op] (.ok request.status) w' ∧ w'.tables = w.tables := by
  obtain ⟨o, status, stage, message⟩ := request
  rcases h with ⟨id, n, rfl⟩ | ⟨id, rfl⟩ | ⟨id, args, rfl⟩
  · exact ⟨{ w with orders := w.orders.closeOrder id n }, (goes_call rfl).andThen (.pure _), rfl⟩
  · exact ⟨{ w with orders := w.orders.removeById id }, (goes_call rfl).andThen (.pure _), rfl⟩
  · exact ⟨{ w with orders := w.orders.update id args }, (goes_call rfl).andThen (.pure _), rfl⟩

theorem goes_wfm (sv : Services) (w : World) (item : CreateItem) (orderType : OrderType)
    (operations : OperationSet) :
    ∃ status w', Goes sv (handleWfmItem item.wfmId item.subType item.quantity orderType operations) w
      (wfmPlan sv.reportToWfm w.orders item orderType operations) (.ok status) w' ∧
        w'.tables = w.tables := by
  have happ : Goes sv (call .appState fromPoison) w [.appState] (.ok ⟨sv.reportToWfm, w.orders⟩) w :=
    goes_call rfl
  by_cases hskip : skipsBuy ⟨sv.reportToWfm, w.orders⟩ orderType operations = true
  · refine ⟨.skippedBuyWfmReportDisabled, w, happ.bind_one ?_, rfl⟩
    simp only [if_pos hskip]
    exact .pure _
  · cases hfound : w.orders.findOrder item.wfmId (.fromEntity item.subType) orderType with
    | none =>
        refine ⟨.noOrder, w, happ.bind_one ?_, rfl⟩
        simp only [if_neg hskip, hfound]
        exact .pure _
    | some order =>
        obtain ⟨w', hsend, htables⟩ := @goes_send sv w _ (orderRequest_cases sv.reportToWfm
          (OperationSet.has operations "ShouldDelete") order item.quantity)
        refine ⟨(orderRequest sv.reportToWfm (OperationSet.has operations "ShouldDelete") order
          item.quantity).status, w', happ.bind_one ?_, htables⟩
        simp only [if_neg hskip, hfound]
        exact hsend

/-! ### The transaction -/

/-- The latest purchase of the item a sale is compared with. -/
def World.latestPurchase (w : World) (tx : Transaction) : Option Transaction :=
  (newestFirst (w.transactions.filter (purchasesOf tx).admits)).head?

/-- The transaction as it is inserted, or how it ends before that. -/
def prepared (w : World) (flags : OperationSet) (tx : Transaction) :
    Except Stop (Transaction × Bool) :=
  (if tx.transactionType = .sale then saleFigures (w.latestPurchase tx) tx else .ok tx) >>=
    setDate parse flags

def purchaseQueries (tx : Transaction) : List Op :=
  if tx.transactionType = .sale then
    [.countTransactions (purchasesOf tx), .fetchTransactions (purchasesOf tx) 0 1]
  else []

def transactionPlan (w : World) (flags : OperationSet) (tx : Transaction) : List Op :=
  purchaseQueries tx ++
    match prepared parse w flags tx with
    | .ok (tx, useCurrentDate) =>
        [.statement .transaction (.insert tx (if useCurrentDate then none else some tx.createdAt))]
    | .error _ => []

theorem goes_firstPage {filter : TransactionFilter} {mapErr : Failure → Error} {page : Nat}
    (h : page = 0) :
    Goes sv (call (.fetchTransactions filter page 1) mapErr) w [.fetchTransactions filter 0 1]
      (.ok ((newestFirst (w.transactions.filter filter.admits)).take 1)) w := by
  subst h
  exact goes_call rfl

theorem goes_getAll (filter : TransactionFilter) :
    Goes sv (TransactionQuery.getAll filter 1 1) w
      [.countTransactions filter, .fetchTransactions filter 0 1]
      (.ok ((newestFirst (w.transactions.filter filter.admits)).take 1)) w := by
  refine Performs.bind_one (a := w.transactions.countP filter.admits) (goes_call rfl) ?_
  refine goes_firstPage ?_
  split <;> omega

theorem goes_figures (tx : Transaction) :
    Goes sv (withFigures tx) w (purchaseQueries tx)
      (if tx.transactionType = .sale then saleFigures (w.latestPurchase tx) tx else .ok tx) w := by
  by_cases hsale : tx.transactionType = .sale
  · simp only [withFigures, if_pos hsale, purchaseQueries]
    refine (goes_getAll (purchasesOf tx)).andThen ?_
    rw [List.head?_take, if_neg (by decide)]
    exact goes_ofExcept _
  · simp only [withFigures, if_neg hsale, purchaseQueries]
    exact .pure _

/-- The row that is stored for a transaction and whether it keeps the current date. -/
def storedRow (sv : Services) (w : World) (dated : Transaction × Bool) : Transaction :=
  inserted .transaction dated.1 (w.nextId .transaction)
    ((if dated.2 then none else some dated.1.createdAt).getD sv.now)

theorem goes_stored (sv : Services) (w : World) (flags : OperationSet) (tx : Transaction) :
    ∃ w', Goes sv (handleTransaction parse tx flags) w (transactionPlan parse w flags tx)
      ((prepared parse w flags tx).map (storedRow sv w)) w' ∧
        ∀ e, prepared parse w flags tx = .error e → w' = w := by
  have hfigures := @goes_figures sv w tx
  cases hr : (if tx.transactionType = .sale then saleFigures (w.latestPurchase tx) tx else .ok tx) with
  | error e =>
      have hend : prepared parse w flags tx = .error e := by rw [prepared, hr]; rfl
      rw [hr] at hfigures
      rw [transactionPlan, hend, List.append_nil]
      exact ⟨w, hfigures.bind_error, fun _ _ => rfl⟩
  | ok tx' =>
      have hset : prepared parse w flags tx = setDate parse flags tx' := by rw [prepared, hr]; rfl
      rw [hr] at hfigures
      rw [transactionPlan, hset]
      cases hdate : setDate parse flags tx' with
      | error e =>
          refine ⟨w, hfigures.bind rfl (Performs.bind_error ?_), fun _ _ => rfl⟩
          rw [hdate]
          exact goes_ofExcept _
      | ok dated =>
          refine ⟨_, hfigures.bind rfl ((goes_ofExcept_ok hdate).bind_nil (goes_call rfl)), ?_⟩
          intro e he
          cases he

theorem goes_transaction (sv : Services) (w : World) (flags : OperationSet) (tx : Transaction) :
    ∃ out w', Goes sv (handleTransaction parse tx flags) w (transactionPlan parse w flags tx) out w' ∧
      ((∃ e, IsErr e ∧ out = .error e) ↔ ∃ e, IsErr e ∧ prepared parse w flags tx = .error e) ∧
        ∀ e, out = .error e → w'.tables = w.tables := by
  obtain ⟨w', hgoes, hkept⟩ := goes_stored parse sv w flags tx
  refine ⟨_, w', hgoes, ?_, ?_⟩
  · cases prepared parse w flags tx with
    | error e => simp only [Except.map, Except.error.injEq]
    | ok dated => simp only [Except.map, reduceCtorEq]
  · intro e he
    cases hprepared : prepared parse w flags tx with
    | error e' => rw [hkept e' hprepared]
    | ok dated =>
        rw [hprepared] at he
        cases he

/-! ### What follows the stock or the wish list -/

/-- The transaction of an item with a price. -/
def booked (item : CreateItem) (userName : String) (orderType : OrderType) : Transaction :=
  asSale orderType (item.transaction .purchase userName)

def bookPlan (w : World) (flags : OperationSet) (price : Int) (tx : Transaction) : List Op :=
  if price ≤ 0 then [] else transactionPlan parse w flags tx

/-- The transaction cannot be written, whatever the database does. -/
def Unbookable (w : World) (flags : OperationSet) (price : Int) (tx : Transaction) : Prop :=
  0 < price ∧ ∃ e, IsErr e ∧ prepared parse w flags tx = .error e

variable {parse}

theorem prepared_congr (h : w'.tables .transaction = w.tables .transaction) (flags : OperationSet)
    (tx : Transaction) : prepared parse w' flags tx = prepared parse w flags tx := by
  simp only [prepared, World.latestPurchase, World.transactions, h]

theorem bookPlan_congr (h : w'.tables .transaction = w.tables .transaction) (flags : OperationSet)
    (price : Int) (tx : Transaction) :
    bookPlan parse w' flags price tx = bookPlan parse w flags price tx := by
  simp only [bookPlan, transactionPlan, prepared_congr h]

theorem unbookable_congr (h : w'.tables .transaction = w.tables .transaction) (flags : OperationSet)
    (price : Int) (tx : Transaction) :
    Unbookable parse w' flags price tx ↔ Unbookable parse w flags price tx := by
  simp only [Unbookable, prepared_congr h]

/-- A handler without its mutation goes through `plan`. It ends with `Err` only if `fails`, and then
leaves the tables as they were; otherwise it returns operations that satisfy `returns`. -/
def Settles (sv : Services) (p : Handler OperationSet) (w : World) (plan : List Op) (fails : Prop)
    (returns : OperationSet → Prop) : Prop :=
  ∃ out w', Goes sv p w plan out w' ∧ ((∃ e, IsErr e ∧ out = .error e) ↔ fails) ∧
    (∀ e, out = .error e → w'.tables = w.tables) ∧ ∀ r, out = .ok r → returns r

/-- What both handlers do last. -/
theorem settles_book {price : Int} {tx : Transaction} {lifted : Except Stop Transaction}
    {orderType : OrderType} {flags operations noPrice : OperationSet}
    (hlifted : 0 < price → lifted = .ok tx) (hprice : asSale orderType tx = tx') :
    Settles sv
      (if price ≤ 0 then pure noPrice
        else do
          let tx ← ofExcept lifted
          let _ ← handleTransaction parse (asSale orderType tx) flags
          return operations) w
      (bookPlan parse w flags price tx') (Unbookable parse w flags price tx')
      fun r => r = noPrice ∨ r = operations := by
  by_cases hfree : price ≤ 0
  · simp only [bookPlan, if_pos hfree, Unbookable, not_lt.mpr hfree, false_and]
    refine ⟨.ok noPrice, w, .pure _, ?_, ?_, ?_⟩
    · simp only [reduceCtorEq, and_false, exists_false]
    · exact fun _ _ => rfl
    · exact fun r hr => .inl (Except.ok.inj hr).symm
  · simp only [bookPlan, if_neg hfree, Unbookable, not_le.mp hfree, true_and]
    obtain ⟨out, w', hgoes, herr, hkept⟩ := goes_transaction parse sv w flags tx'
    rw [← hprice] at hgoes
    cases out with
    | error e =>
        refine ⟨.error e, w', ?_, ?_, fun _ _ => hkept e rfl, ?_⟩
        · exact (goes_ofExcept_ok (hlifted (not_le.mp hfree))).bind_nil (hprice ▸ hgoes.bind_error)
        · rw [← herr]
          simp only [Except.error.injEq]
        · simp only [reduceCtorEq, false_implies, implies_true]
    | ok tx' =>
        refine ⟨.ok operations, w', ?_, ?_, ?_, ?_⟩
        · exact (goes_ofExcept_ok (hlifted (not_le.mp hfree))).bind_nil
            (hprice ▸ hgoes.andThen (.pure _))
        · rw [← herr]
          simp only [reduceCtorEq]
        · simp only [reduceCtorEq, false_implies, implies_true]
        · exact fun r hr => .inr (Except.ok.inj hr).symm

/-- First a step that writes no table. -/
theorem Settles.after {p : Handler OperationSet} {f : OperationSet → Handler OperationSet}
    {plan plan' : List Op} {operations : OperationSet} {fails : Prop} {returns : OperationSet → Prop}
    (hp : Goes sv p w plan (.ok operations) w') (hkept : w'.tables = w.tables)
    (hf : Settles sv (f operations) w' plan' fails returns) :
    Settles sv (p >>= f) w (plan ++ plan') fails returns := by
  obtain ⟨out, w'', hgoes, herr, htables, hreturns⟩ := hf
  exact ⟨out, w'', hp.bind hkept hgoes, herr, fun e he => (htables e he).trans hkept, hreturns⟩

/-- A step that writes no table may come before the booking. -/
theorem Settles.later {p : Handler OperationSet} {flags : OperationSet} {price : Int} {tx : Transaction}
    {returns returns' : OperationSet → Prop}
    (h : Settles sv p w' (bookPlan parse w' flags price tx) (Unbookable parse w' flags price tx) returns)
    (hkept : w'.tables = w.tables) (himp : ∀ r, returns r → returns' r) :
    Settles sv p w' (bookPlan parse w flags price tx) (Unbookable parse w flags price tx) returns' := by
  obtain ⟨out, w'', hgoes, herr, htables, hreturns⟩ := h
  rw [bookPlan_congr (congrFun hkept _)] at hgoes
  rw [unbookable_congr (congrFun hkept _)] at herr
  exact ⟨out, w'', hgoes, herr, htables, fun r hr => himp r (hreturns r hr)⟩

theorem has_add_of_ne {operations : OperationSet} {operation other : String} (h : operation ≠ other) :
    OperationSet.has (OperationSet.add operations operation) other =
      OperationSet.has operations other := by
  rw [OperationSet.has_add, decide_eq_false h, Bool.or_false]

theorem wfmStatus_ne (status : WfmStatus) : "WFMItem_" ++ status.asStr ≠ wishListNotFound := by
  cases status <;> decide +kernel

theorem noTransaction_ne : "PriceZeroNoTransaction" ≠ wishListNotFound := by decide +kernel

theorem booked_stock {item : CreateItem} {userName component : String}
    (hvalid : item.isValidated = true) (hprice : 0 < item.price) :
    liftTransaction component (item.stockTransaction userName) =
      .ok (item.transaction .purchase userName) := by
  simp only [CreateItem.stockTransaction, hvalid, hprice, liftTransaction, if_true, Bool.not_true,
    Bool.false_eq_true, if_false]

theorem booked_wishList {item : CreateItem} {userName component : String}
    (hvalid : item.isValidated = true) :
    liftTransaction component (item.wishListTransaction userName) =
      .ok (item.transaction .purchase userName) := by
  simp only [CreateItem.wishListTransaction, hvalid, liftTransaction, Bool.not_true,
    Bool.false_eq_true, if_false]

section Settling

variable (parse) (sv w) (item : CreateItem) (userName : String) (orderType : OrderType)
  (flags operations : OperationSet)

def stockSettlement : List Op :=
  (if shouldRunWfm flags operations then wfmPlan sv.reportToWfm w.orders item orderType [] else []) ++
    bookPlan parse w flags item.price (booked item userName orderType)

def wishListSettlement : List Op :=
  if returnsEarly flags operations then []
  else
    wfmPlan sv.reportToWfm w.orders item orderType ["ForceOrderSync"] ++
      bookPlan parse w flags item.price (booked item userName orderType)

variable {item}

theorem settles_stock (hvalid : item.isValidated = true) :
    Settles sv (settleStock parse item userName orderType flags operations) w
      (stockSettlement parse sv w item userName orderType flags operations)
      (Unbookable parse w flags item.price (booked item userName orderType)) fun _ => True := by
  by_cases hrun : shouldRunWfm flags operations = true
  · obtain ⟨status, w', hwfm, hkept⟩ := goes_wfm sv w item orderType []
    have hsync : Goes sv (syncStock item orderType flags operations) w
        (wfmPlan sv.reportToWfm w.orders item orderType [])
        (.ok (OperationSet.add operations ("WFMItem_" ++ status.asStr))) w' := by
      simp only [syncStock, if_pos hrun]
      exact hwfm.andThen (.pure _)
    simp only [stockSettlement, if_pos hrun]
    exact .after hsync hkept ((settles_book (booked_stock hvalid) rfl).later hkept fun _ _ => trivial)
  · have hsync : Goes sv (syncStock item orderType flags operations) w []
        (.ok (OperationSet.add operations "SkippedWFMCheck")) w := by
      simp only [syncStock, if_neg hrun]
      exact .pure _
    simp only [stockSettlement, if_neg hrun]
    exact .after hsync rfl ((settles_book (booked_stock hvalid) rfl).later rfl fun _ _ => trivial)

/-- A purchase that was taken from the wish list is not reported as missing there. -/
theorem settles_wishList (hvalid : item.isValidated = true) :
    Settles sv (settleWishList parse item userName orderType flags operations) w
      (wishListSettlement parse sv w item userName orderType flags operations)
      (¬ returnsEarly flags operations = true ∧
        Unbookable parse w flags item.price (booked item userName orderType))
      fun r => OperationSet.has r wishListNotFound = OperationSet.has operations wishListNotFound := by
  by_cases hearly : returnsEarly flags operations = true
  · simp only [settleWishList, wishListSettlement, hearly, if_true, not_true_eq_false, false_and]
    refine ⟨.ok _, w, .pure _, ?_, fun _ _ => rfl, ?_⟩
    · simp only [reduceCtorEq, and_false, exists_false]
    · rintro r hr
      rw [← Except.ok.inj hr]
      exact has_add_of_ne (by decide +kernel)
  · obtain ⟨status, w', hwfm, hkept⟩ := goes_wfm sv w item orderType ["ForceOrderSync"]
    have hsync : Goes sv (syncWfm item orderType operations) w
        (wfmPlan sv.reportToWfm w.orders item orderType ["ForceOrderSync"])
        (.ok (OperationSet.add operations ("WFMItem_" ++ status.asStr))) w' := hwfm.andThen (.pure _)
    rw [Bool.not_eq_true] at hearly
    simp only [settleWishList, wishListSettlement, hearly, Bool.false_eq_true, if_false,
      not_false_eq_true, true_and]
    refine .after hsync hkept ((settles_book (fun _ => booked_wishList hvalid) rfl).later hkept ?_)
    rintro r (rfl | rfl)
    · exact (has_add_of_ne noTransaction_ne).trans (has_add_of_ne (wfmStatus_ne status))
    · exact has_add_of_ne (wfmStatus_ne status)

end Settling

end Quantframe.Handlers
