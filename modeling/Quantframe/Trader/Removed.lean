import Quantframe.Trader.Counts
import Quantframe.Trader.Slots

/-!
# Rows that are removed while a cycle runs

A row that is gone when a cycle reads it is passed over. One that is gone when the cycle writes it back ends
the cycle, and the entries that are left are not processed.
-/

namespace Quantframe.Trader

open Lib Lib.Effect
open Handlers (TableName Row Services Op Failure OperationSet)
open Trades (Error)

/-- Every row that was written back was there. -/
def Found {X : Type} (s : Shop X) : Prop := ∀ b ∈ s.own.writeBacks, b.stored ≠ none

/-- The entries that the cache can resolve. -/
def resolvable {F : Type} (ctx : TradeContext F) (entries : List ItemEntry) : List ItemEntry :=
  entries.filter fun entry => (ctx.tradable entry.wfmUrl).isSome

/-! ### Programs that fail only over a write or a missing row -/

section Fair

variable {X α β : Type} {m : TraderM (Shop X) α} {f : α → TraderM (Shop X) β} {turned : List ItemEntry}
  {w : World (Shop X)}

/-- A return stays on course, and found every row; a failure had a failed write, or missed a row. -/
def FairEnd (turned : List ItemEntry) (r : Except Error α) (t : World (Shop X)) : Prop :=
  (∀ a, r = .ok a → OnCourse Found turned False t) ∧ (IsError r → Spoiled t.trace ∨ ¬ Found t.ext)

def Fair (m : TraderM (Shop X) α) : Prop :=
  ∀ turned w, OnCourse Found turned False w → m.wp (FairEnd turned) w

theorem FairEnd.ok {a : α} (h : OnCourse Found turned False w) : FairEnd turned (.ok a : Except Error α) w :=
  ⟨fun _ _ => h, fun he => absurd he not_isError⟩

theorem FairEnd.error {e : Error} (h : Spoiled w.trace ∨ ¬ Found w.ext) :
    FairEnd turned (.error e : Except Error α) w := ⟨nofun, fun _ => h⟩

theorem fair_of_steady (h : Steady Found m) : Fair m := by
  intro turned w hw
  refine wp_mono (h turned False w hw) fun r t ht => ⟨fun a _ => ht.weaken .inl, fun he => ?_⟩
  exact .inl (ht.spoiled (.inr he))

namespace Fair

theorem pure (a : α) : Fair (pure a : TraderM (Shop X) α) := fun _ _ h => FairEnd.ok h

theorem bind (hm : Fair m) (hf : ∀ a, Fair (f a)) : Fair (m >>= f) := by
  intro turned w h
  rw [wp_bind]
  refine wp_mono (hm turned w h) fun r t ht => ?_
  cases r with
  | ok a => exact hf a turned t (ht.1 a rfl)
  | error e => exact FairEnd.error (ht.2 ⟨e, rfl⟩)

theorem ite {c : Prop} [Decidable c] {m' : TraderM (Shop X) α} (h : c → Fair m) (h' : ¬ c → Fair m') :
    Fair (if c then m else m') := by
  by_cases hc : c
  · rw [if_pos hc]
    exact h hc
  · rw [if_neg hc]
    exact h' hc

theorem demand {q : Shop X → Except Error α × Shop X}
    (h : ∀ s, Found s → (∀ a, (q s).1 = .ok a → Found (q s).2) ∧ (IsError (q s).1 → ¬ Found (q s).2)) :
    Fair (demand q) := by
  intro turned w hw
  rw [Trader.demand, wp_bind, ask, wp_act, next_ok]
  obtain ⟨hok, herror⟩ := h w.ext hw.ext
  split
  next a ha => exact FairEnd.ok ⟨hok a ha, hw.turns, hw.spoiled⟩
  next e he => exact FairEnd.error (.inr (herror ⟨e, he⟩))

end Fair

end Fair

/-! ### The statements of a cycle -/

section Statements

variable {X α : Type} {db : Database X} {t : TableName} {s : Shop X}

/-- A database that fails no statement. -/
def Database.Reliable (db : Database X) : Prop := ∀ x, (db.failure x).1 = none

theorem statement_reliable (hdb : db.Reliable) (failed : Failure → Error) (run : Shop X → Except Error α × Shop X)
    (s : Shop X) : ∃ s', s'.own.writeBacks = s.own.writeBacks ∧ Shop.statement db failed run s = run s' := by
  have hnone := hdb (s.giveWay Services.answer).own.ext
  rw [Shop.statement, Shared.inTurn]
  split
  next failure ext hfailure =>
    rw [hfailure] at hnone
    cases hnone
  next ext _ =>
    let asked := s.giveWay Services.answer
    exact ⟨{ asked with own := { asked.own with ext := ext } }, rfl, rfl⟩

theorem findById_reliable (hdb : db.Reliable) (failed : Failure → Error) (id : Int) (s : Shop X) :
    ∃ found s', Shop.findById db t failed id s = (.ok found, s') ∧ s'.own.writeBacks = s.own.writeBacks := by
  obtain ⟨s', hs', hrun⟩ := statement_reliable hdb failed (fun s => (.ok ((s.store.tables t).lookup id), s)) s
  exact ⟨_, s', hrun, hs'⟩

theorem found_wroteBack (h : Found s) (held : Count) (row : Row t) : Found (s.wroteBack t held (some row)) := by
  intro b hb
  rcases List.mem_append.mp hb with hold | hnew
  · exact h b hold
  · cases List.mem_singleton.mp hnew
    exact Option.some_ne_none _

theorem not_found_wroteBack (held : Count) : ¬ Found (s.wroteBack t held none) :=
  fun h => h _ (List.mem_append_right _ List.mem_cons_self) rfl

/-- `update_by_id` succeeds on a row that is there, and fails on one that is gone. -/
theorem updateById_reliable (hdb : db.Reliable) (component label : String) (copy : Copy t) (h : Found s) :
    (∀ a, (Shop.updateById db t component label copy s).1 = .ok a →
      Found (Shop.updateById db t component label copy s).2) ∧
      (IsError (Shop.updateById db t component label copy s).1 →
        ¬ Found (Shop.updateById db t component label copy s).2) := by
  obtain ⟨found, s', hfind, hs'⟩ := findById_reliable (t := t) hdb
    (Handlers.fromDb component ("Failed to find " ++ label ++ " by ID")) copy.id s
  rw [Shop.updateById, hfind]
  cases found with
  | none => exact ⟨(fun _ hr => by cases hr), fun _ => not_found_wroteBack _⟩
  | some row =>
      show (∀ a, (Shop.update db t component label copy row s').1 = .ok a →
        Found (Shop.update db t component label copy row s').2) ∧
          (IsError (Shop.update db t component label copy row s').1 →
            ¬ Found (Shop.update db t component label copy row s').2)
      rw [Shop.update]
      obtain ⟨s'', hs'', hrun⟩ := statement_reliable hdb (Handlers.fromDb component ("Failed to update " ++ label))
        _ s'
      rw [hrun]
      cases hrow : (s''.store.tables t).lookup copy.id with
      | none => exact ⟨(fun _ hr => by cases hr), fun _ => not_found_wroteBack _⟩
      | some stored =>
          have hfound : Found s'' := by
            rw [Found, hs'', hs']
            exact h
          refine ⟨fun _ _ => ?_, fun he => absurd he not_isError⟩
          exact found_wroteBack hfound copy.count stored

end Statements

/-! ### The entries of a cycle -/

section Entries

variable {X F : Type} {num : PriceFloats F} {out : Outside X} {db : Database X} {ctx : TradeContext F}

theorem request_found {α : Type} (q : X → α × X) {s : Shop X} (h : Found s) : Found (Shop.request q s).2 := h

theorem inShop_found : (out.inShop db).toOrdersOutside.Keeping Found where
  create params _ h := request_found (out.create params) h
  update id params _ h := request_found (out.update id params) h
  delete id _ h := request_found (out.delete id) h
  myOrders _ h := request_found out.myOrders h
  uuid _ h := request_found out.uuid h

theorem getStockItem_fair (hdb : db.Reliable) {entry : ItemEntry} (hid : entry.stockId.isSome = true) :
    Fair (getStockItem (out.inShop db) entry) := by
  obtain ⟨id, hid⟩ := Option.isSome_iff_exists.mp hid
  rw [getStockItem, hid]
  refine Fair.demand fun s hs => ?_
  obtain ⟨found, s', hfind, hs'⟩ := findById_reliable (t := .stockItem) hdb
    (Handlers.fromDb "StockItemQuery:FindById" "Failed to find Stock Item by ID") id s
  simp only [Outside.inShop, hfind]
  refine ⟨fun _ _ => ?_, fun he => absurd he not_isError⟩
  rw [Found, hs']
  exact hs

theorem getWishListItem_fair (hdb : db.Reliable) {entry : ItemEntry} (hid : entry.wishListId.isSome = true) :
    Fair (getWishListItem (out.inShop db) entry) := by
  obtain ⟨id, hid⟩ := Option.isSome_iff_exists.mp hid
  rw [getWishListItem, hid]
  refine Fair.demand fun s hs => ?_
  obtain ⟨found, s', hfind, hs'⟩ := findById_reliable (t := .wishList) hdb
    (Handlers.fromDb "WishListQuery:GetById" "Failed to get Wish List item by ID") id s
  simp only [Outside.inShop, hfind]
  refine ⟨fun _ _ => ?_, fun he => absurd he not_isError⟩
  rw [Found, hs']
  exact hs

theorem finalizeStockItem_fair (hdb : db.Reliable) (item : StockItem) :
    Fair (finalizeStockItem (out.inShop db) item) :=
  .ite (fun _ => .demand fun _ hs => updateById_reliable hdb _ _ (item.toUpdate db) hs) fun _ => .pure ()

theorem finalizeWishListItem_fair (hdb : db.Reliable) (item : WishListItem) :
    Fair (finalizeWishListItem (out.inShop db) item) :=
  .ite (fun _ => .demand fun _ hs => updateById_reliable hdb _ _ (item.toUpdate db) hs) fun _ => .pure ()

theorem stockIsFull_fair (hdb : db.Reliable) (entry : ItemEntry) : Fair (stockIsFull (out.inShop db) ctx entry) := by
  refine .ite (fun hid => ?_) fun _ => .pure false
  exact (getStockItem_fair hdb (Bool.and_eq_true_iff.mp hid).2).bind fun _ => .pure _

theorem progressBuying_fair (hdb : db.Reliable) (itemInfo : CacheTradableItem) (entry : ItemEntry)
    (price : ItemPriceInfo F) (live : LiveOrders) (route : Route) (slots : Slots) :
    Fair (progressBuying num (out.inShop db) ctx itemInfo entry price live route slots) := by
  have hdelete : ∀ reason, Fair (deleteOrder (out.inShop db).toOrdersOutside entry .buy route reason) :=
    fun reason => fair_of_steady (deleteOrder_steady inShop_found _ _ _ _)
  refine .ite (fun _ => .pure ()) fun _ => (fair_of_steady (getOrderInfo_steady _ _ _)).bind fun info => ?_
  refine .ite (fun _ => hdelete _) fun _ => (stockIsFull_fair hdb entry).bind fun full => ?_
  refine .ite (fun _ => hdelete _) fun _ => (fair_of_steady (Steady.read _)).bind fun orders => ?_
  exact .ite (fun _ => .pure ()) fun _ => fair_of_steady (progressOrder_steady inShop_found _ _ _ _ _ _ _ _)

theorem progressSelling_fair (hdb : db.Reliable) (itemInfo : CacheTradableItem) {entry : ItemEntry}
    (hid : entry.stockId.isSome = true) (price : ItemPriceInfo F) (live : LiveOrders) (route : Route) (slots : Slots) :
    Fair (progressSelling num (out.inShop db) ctx itemInfo entry price live route slots) := by
  refine .ite (fun _ => .pure ()) fun _ => (getStockItem_fair hdb hid).bind fun found => ?_
  cases found with
  | none => exact .pure ()
  | some item =>
      refine (fair_of_steady (getOrderInfo_steady _ _ _)).bind fun info => .ite (fun _ => .pure ()) fun _ => ?_
      exact (fair_of_steady (progressOrder_steady inShop_found _ _ _ _ _ _ _ _)).bind fun _ =>
        finalizeStockItem_fair hdb _

theorem progressWishList_fair (hdb : db.Reliable) (itemInfo : CacheTradableItem) {entry : ItemEntry}
    (hid : entry.wishListId.isSome = true) (price : ItemPriceInfo F) (route : Route) (slots : Slots) :
    Fair (progressWishList num (out.inShop db) ctx itemInfo entry price route slots) := by
  refine .ite (fun _ => .pure ()) fun _ => (getWishListItem_fair hdb hid).bind fun found => ?_
  cases found with
  | none => exact .pure ()
  | some item =>
      refine (fair_of_steady (getOrderInfo_steady _ _ _)).bind fun info => .ite (fun _ => .pure ()) fun _ => ?_
      exact (fair_of_steady (progressOrder_steady inShop_found _ _ _ _ _ _ _ _)).bind fun _ =>
        finalizeWishListItem_fair hdb _

/-- An entry that is wished for names its row. -/
def ItemEntry.NamesWish (entry : ItemEntry) : Prop :=
  OperationSet.has entry.operations "WishList" = true → entry.wishListId.isSome = true

instance (entry : ItemEntry) : Decidable entry.NamesWish := inferInstanceAs (Decidable (_ → _))

theorem progressEntry_fair (hdb : db.Reliable) (itemInfo : CacheTradableItem) {entry : ItemEntry}
    (hwish : entry.NamesWish) (price : ItemPriceInfo F) (live : LiveOrders) (route : Route) (slots : Slots) :
    Fair (progressEntry num (out.inShop db) ctx itemInfo entry price live route slots) := by
  have hsell : Fair (if OperationSet.has entry.operations "Sell" && entry.stockId.isSome then
      progressSelling num (out.inShop db) ctx itemInfo entry price live route slots else pure ()) :=
    .ite (fun hid => progressSelling_fair hdb itemInfo (Bool.and_eq_true_iff.mp hid).2 _ _ _ _) fun _ => .pure ()
  have hrest : Fair (do
      if OperationSet.has entry.operations "WishList" then
        progressWishList num (out.inShop db) ctx itemInfo entry price route slots
      else pure ()
      if OperationSet.has entry.operations "Sell" && entry.stockId.isSome then
        progressSelling num (out.inShop db) ctx itemInfo entry price live route slots
      else pure ()) :=
    .ite (fun hop => (progressWishList_fair hdb itemInfo (hwish hop) _ _ _).bind fun _ => hsell)
      fun _ => (Fair.pure ()).bind fun _ => hsell
  exact .ite (fun _ => (progressBuying_fair hdb itemInfo _ _ _ _ _).bind fun _ => hrest)
    fun _ => (Fair.pure ()).bind fun _ => hrest

end Entries

/-! ### The whole cycle -/

/-- Every fetch succeeds, and nobody stops the cycle. -/
structure Outside.Serves {X : Type} (out : Outside X) : Prop where
  liveOrders : ∀ url x, ∃ book, (out.liveOrders url x).1 = .ok book
  wishListKeys : ∀ x, ∃ keys, (out.wishListKeys x).1 = .ok keys
  running : ∀ x, (out.running x).1 = true

section Cycle

variable {X F : Type} {num : PriceFloats F} {out : Outside X} {db : Database X} {ctx : TradeContext F}
  {turned : List ItemEntry} {w : World (Shop X)}

theorem fetch_fair {α : Type} {q : X → Except Error α × X} (hq : ∀ x, ∃ a, (q x).1 = .ok a) :
    Fair (demand (Shop.request q)) := by
  refine Fair.demand fun s hs => ⟨fun _ _ => request_found q hs, fun he => ?_⟩
  obtain ⟨a, ha⟩ := hq (s.giveWay Services.answer).own.ext
  obtain ⟨e, he⟩ := he
  cases ha.symm.trans he

theorem processEntry_fair (hdb : db.Reliable) (hout : out.Serves) (slots : Slots) {entry : ItemEntry}
    (hwish : entry.NamesWish) (h : OnCourse Found turned False w) :
    (processEntry num (out.inShop db) ctx slots entry).wp (FairEnd (turned ++ resolvable ctx [entry])) w := by
  rw [processEntry]
  cases hitem : ctx.tradable entry.wfmUrl with
  | none =>
      have hnone : resolvable ctx [entry] = [] := by simp [resolvable, hitem]
      rw [hnone, List.append_nil]
      exact FairEnd.ok h
  | some itemInfo =>
      have hsome : resolvable ctx [entry] = [entry] := by simp [resolvable, hitem]
      rw [hsome, wp_bind, wp_read, next_ok, wp_bind, Trader.turnTo, wp_change, next_ok]
      have hturned : OnCourse Found (turned ++ [entry]) False
          { w with
            processing := some (priceOf num ctx itemInfo entry).warm
            trace := w.trace ++ [.turn entry] } := by
        refine ⟨h.ext, ?_, False.elim⟩
        show List.filterMap Step.turned (w.trace ++ [.turn entry]) = _
        rw [List.filterMap_append, ← h.turns]
        rfl
      have hwish : ∀ live, (entry.applyMarketInfo live).NamesWish := fun _ => hwish
      have hdone : Fair (setProcessing none : TraderM (Shop X) Unit) :=
        fun _ _ h => FairEnd.ok ⟨h.ext, h.turns, h.spoiled⟩
      refine Fair.bind (fetch_fair (hout.liveOrders entry.wfmUrl)) (fun book => ?_) _ _ hturned
      exact (progressEntry_fair hdb itemInfo (hwish _) _ _ _ slots).bind fun _ => hdone

theorem processAll_fair (hdb : db.Reliable) (hout : out.Serves) (hbanned : ctx.banned = false) (slots : Slots)
    {entries : List ItemEntry} (hwish : ∀ entry ∈ entries, entry.NamesWish) (h : OnCourse Found turned False w) :
    (eachUntil (shouldStop (out.inShop db) ctx) entries (processEntry num (out.inShop db) ctx slots)).wp
      (fun r t => FairEnd (turned ++ resolvable ctx entries) r t ∧ ∀ stopped, r = .ok stopped → stopped = false) w := by
  induction entries generalizing turned w with
  | nil =>
      refine ⟨?_, fun _ hr => (Except.ok.inj hr).symm⟩
      rw [resolvable, List.filter_nil, List.append_nil]
      exact FairEnd.ok h
  | cons entry rest ih =>
      have hgoing : (!((out.inShop db).running w.ext).1 || ctx.banned) = false := by
        rw [hbanned, Bool.or_false, Bool.not_eq_false']
        exact hout.running _
      have hasked : OnCourse Found turned False { w with ext := ((out.inShop db).running w.ext).2 } :=
        ⟨request_found out.running h.ext, h.turns, False.elim⟩
      rw [eachUntil, wp_bind, shouldStop, wp_bind, ask, wp_act, next_ok, wp_pure, next_ok, hgoing, wp_ite]
      refine ⟨(fun h => by cases h), fun _ => ?_⟩
      rw [wp_bind]
      refine wp_mono (processEntry_fair hdb hout slots (hwish entry List.mem_cons_self) hasked) fun r t ht => ?_
      have hsplit : resolvable ctx (entry :: rest) = resolvable ctx [entry] ++ resolvable ctx rest := by
        rw [resolvable, resolvable, resolvable, ← List.filter_append, List.singleton_append]
      cases r with
      | error e => exact ⟨FairEnd.error (ht.2 ⟨e, rfl⟩), fun _ hr => by cases hr⟩
      | ok a =>
          rw [hsplit, ← List.append_assoc]
          exact ih (fun e he => hwish e (List.mem_cons_of_mem _ he)) (ht.1 a rfl)

/-- After the entries nothing ends the cycle, unless a write fails. -/
theorem processItems_fair (hdb : db.Reliable) (hout : out.Serves) (hbanned : ctx.banned = false)
    {entries : List ItemEntry} (hwish : ∀ entry ∈ entries, entry.NamesWish) (h : OnCourse Found turned False w) :
    (processItems num (out.inShop db) ctx entries).wp
      (fun r t => FairEnd (turned ++ resolvable ctx (byPriority entries)) r t ∧
        ∀ total, r = .ok total → total = entries.length) w := by
  have hsorted : ∀ entry ∈ byPriority entries, entry.NamesWish :=
    fun entry hentry => hwish entry ((List.perm_insertionSort _ entries).mem_iff.mp hentry)
  have hcap : ∀ existing, Fair (holdCap num (out.inShop db) ctx existing) :=
    fun existing => fair_of_steady (holdCap_steady inShop_found existing)
  have hsweep : Fair (sweepOrphans (out.inShop db) ctx (byPriority entries)) :=
    fair_of_steady (sweepOrphans_steady inShop_found (fun _ hs => request_found out.now hs) _)
  have hlength : (byPriority entries).length = entries.length := List.length_insertionSort _ entries
  rw [processItems, wp_bind, processEntries, wp_bind, wp_read, next_ok, wp_bind]
  refine wp_mono (fetch_fair hout.wishListKeys turned w h) fun r t ht => ?_
  cases r with
  | error e => exact ⟨FairEnd.error (ht.2 ⟨e, rfl⟩), fun _ hr => by cases hr⟩
  | ok keys =>
      rw [next_ok, wp_bind]
      refine wp_mono (processAll_fair hdb hout hbanned _ hsorted (ht.1 keys rfl)) fun r u hu => ?_
      obtain ⟨hfair, hstopped⟩ := hu
      cases r with
      | error e => exact ⟨FairEnd.error (hfair.2 ⟨e, rfl⟩), fun _ hr => by cases hr⟩
      | ok stopped =>
          cases hstopped stopped rfl
          rw [next_ok, wp_pure, next_ok]
          rw [wp_bind]
          refine wp_mono (hcap _ _ u (hfair.1 false rfl)) fun r v hv => ?_
          cases r with
          | error e => exact ⟨FairEnd.error (hv.2 ⟨e, rfl⟩), fun _ hr => by cases hr⟩
          | ok _ =>
              have hreturn : ∀ x : World (Shop X), OnCourse Found (turned ++ resolvable ctx (byPriority entries)) False x →
                  FairEnd (turned ++ resolvable ctx (byPriority entries)) (.ok (byPriority entries).length) x ∧
                    ∀ total, (.ok (byPriority entries).length : Except Error Nat) = .ok total → total = entries.length :=
                fun x hx => ⟨FairEnd.ok hx, fun _ ht => (Except.ok.inj ht).symm.trans hlength⟩
              rw [next_ok, wp_ite]
              refine ⟨fun _ => ?_, fun _ => hreturn v (hv.1 _ rfl)⟩
              rw [wp_bind]
              refine wp_mono (hsweep _ v (hv.1 _ rfl)) fun r x hx => ?_
              cases r with
              | error e => exact ⟨FairEnd.error (hx.2 ⟨e, rfl⟩), fun _ hr => by cases hr⟩
              | ok _ => exact hreturn x (hx.1 _ rfl)

/-- Rows are removed by other requests while a cycle runs, and every fetch and every market write succeeds. The
cycle processes every entry and returns if and only if each row that it writes back is still there. -/
theorem processItems_completes_iff (num : PriceFloats F) (hdb : db.Reliable) (hout : out.Serves)
    (hbanned : ctx.banned = false) (entries : List ItemEntry) (hwish : ∀ entry ∈ entries, entry.NamesWish)
    (w : World (Shop X)) (hnew : w.ext.own.writeBacks = [])
    (hwrites : ¬ Spoiled ((processItems num (out.inShop db) ctx entries).exec w).2.trace) :
    let after := (processItems num (out.inShop db) ctx entries).exec w
    (after.1 = .ok entries.length ∧
        turns after.2.trace = turns w.trace ++ resolvable ctx (byPriority entries)) ↔
      ∀ b ∈ after.2.ext.own.writeBacks, b.stored ≠ none := by
  intro after
  have hstart : OnCourse Found (turns w.trace) False w := ⟨fun b hb => by simp [hnew] at hb, rfl, False.elim⟩
  have hend : FairEnd (turns w.trace ++ resolvable ctx (byPriority entries)) after.1 after.2 ∧
      ∀ total, after.1 = .ok total → total = entries.length := processItems_fair hdb hout hbanned hwish hstart
  obtain ⟨⟨hok, herror⟩, htotal⟩ := hend
  constructor
  · rintro ⟨hreturn, -⟩
    exact (hok _ hreturn).ext
  · intro hfound
    cases hafter : after.1 with
    | error e => exact absurd ((herror ⟨e, hafter⟩).resolve_left hwrites) (not_not_intro hfound)
    | ok total => exact ⟨by rw [htotal total hafter], (hok total hafter).turns⟩

end Cycle

/-! ### A row removed before its read, and after it -/

/-- The stock row is deleted while an entry of its own and a bid for another item are processed. -/
def World.losing (turns : List Nat) : World (Shop Nat) :=
  .start (.new (some ⟨.new [], 100⟩) false) ⟨storeOf (prismRow 3),
    [(plainServices, (Handlers.StockItemMutation.deleteById 1).run >>= fun _ => .done ())], turns, ⟨0, []⟩⟩

theorem reliable_willing : Database.willing.Reliable := fun _ => rfl

theorem serves_willing (entries : List ItemEntry) (book : LiveOrders) : (Outside.willing entries book).Serves :=
  ⟨fun _ _ => ⟨book, rfl⟩, fun _ => ⟨[], rfl⟩, fun _ => rfl⟩

theorem not_spoiled_of_all {trace : List Step} (h : ∀ step ∈ trace, step.Succeeded) : ¬ Spoiled trace := by
  rintro ⟨write, hwrite, hfailed⟩
  have hsucceeded : write.succeeded = true := h _ hwrite
  rw [hfailed] at hsucceeded
  cases hsucceeded

theorem processItems_completes_prism :
    ((processItems .whole ((Outside.willing [] .spread).inShop .willing) (.sample .plain true)
      [.sale 1 "prism", .bid "lens"]).exec (World.losing [0, 0, 0, 3])).1 = .ok 2 :=
  ((processItems_completes_iff .whole reliable_willing (serves_willing [] .spread) rfl [.sale 1 "prism", .bid "lens"]
    (by decide +kernel) (World.losing [0, 0, 0, 3]) rfl (not_spoiled_of_all (by decide +kernel))).mpr
      (by decide +kernel)).1

/-- The row is deleted while its order is created: the cycle ends with the write-back, and the bid is skipped. -/
theorem removed_row_ends_cycle :
    let after := (processItems .whole ((Outside.willing [] .spread).inShop .willing) (.sample .plain true)
      [.sale 1 "prism", .bid "lens"]).exec (World.losing [0, 0, 0, 0, 3])
    (∀ step ∈ after.2.trace, step.Succeeded) ∧
      after.1 = .error ⟨"StockItemMutation:UpdateById", "Stock Item not found"⟩ ∧
      turns after.2.trace = [.sale 1 "prism"] := by
  refine ⟨?_, ?_, ?_⟩
  · decide +kernel
  · decide +kernel
  · decide +kernel

end Quantframe.Trader
