import Quantframe.Lib.Log
import Quantframe.Trader.BuyCap

/-!
# The grace of orphans

A sweep dates the orphans it sees for the first time and forgets those that it does not see. So the date of
an orphan is that of the first of the sweeps that have all seen it since.
-/

namespace Quantframe.Trader

open Lib Lib.Effect Market
open Handlers (OperationSet)

/-! ### The dates -/

section Dates

variable {firstSeen : List (String × Int)} {orphans : List String} {now : Int} {id : String}

theorem firstSeenAt_append (kept dated : List (String × Int)) (id : String) :
    firstSeenAt (kept ++ dated) id = (firstSeenAt kept id).or (firstSeenAt dated id) := by
  simp only [firstSeenAt, List.find?_append]
  cases kept.find? fun e => e.1 = id with
  | none => simp
  | some e => simp

theorem firstSeenAt_kept (hid : id ∈ orphans) :
    firstSeenAt (firstSeen.filter fun e => orphans.contains e.1) id = firstSeenAt firstSeen id := by
  simp only [firstSeenAt, List.find?_filter]
  congr 2
  funext e
  by_cases he : e.1 = id
  · simp [he, hid]
  · simp [he]

theorem firstSeenAt_dated (hid : id ∈ orphans) : firstSeenAt (orphans.map fun id => (id, now)) id = some now := by
  have hfound : (orphans.find? fun x => decide (x = id)).isSome := by
    rw [List.find?_isSome]
    exact ⟨id, hid, decide_eq_true rfl⟩
  obtain ⟨x, hx⟩ := Option.isSome_iff_exists.mp hfound
  simp only [firstSeenAt, List.find?_map, Function.comp_def, hx, Option.map_some]

/-- An orphan keeps the date it has, or gets that of the sweep. -/
theorem firstSeenAt_seeOrphans (hid : id ∈ orphans) :
    firstSeenAt (seeOrphans firstSeen orphans now) id = some ((firstSeenAt firstSeen id).getD now) := by
  rw [seeOrphans, firstSeenAt_append, firstSeenAt_kept hid]
  cases hseen : firstSeenAt firstSeen id with
  | some s => rfl
  | none =>
      rw [Option.none_or, Option.getD_none]
      refine firstSeenAt_dated (List.mem_filter.mpr ⟨hid, ?_⟩)
      rw [firstSeenAt_kept hid, hseen, Option.isNone_none]

theorem mem_orphans_of_seen {s : Int} (h : firstSeenAt (seeOrphans firstSeen orphans now) id = some s) :
    id ∈ orphans := by
  obtain ⟨e, hfind, -⟩ := Option.map_eq_some_iff.mp h
  have hmatch := List.find?_some hfind
  have hid : e.1 = id := of_decide_eq_true hmatch
  have hmem := List.mem_of_find?_eq_some hfind
  rw [seeOrphans, List.mem_append] at hmem
  rcases hmem with hkept | hdated
  · have := (List.mem_filter.mp hkept).2
    rw [hid] at this
    exact List.contains_iff_mem.mp this
  · obtain ⟨x, hx, rfl⟩ := List.mem_map.mp hdated
    rw [← hid]
    exact List.mem_of_mem_filter hx

theorem mem_dueOrphans {grace : Int} (h : id ∈ dueOrphans firstSeen orphans now grace) :
    ∃ s, firstSeenAt (seeOrphans firstSeen orphans now) id = some s ∧ s + grace ≤ now := by
  obtain ⟨hid, hdue⟩ := List.mem_filter.mp h
  have hdue := of_decide_eq_true hdue
  refine ⟨_, firstSeenAt_seeOrphans hid, ?_⟩
  rw [firstSeenAt_seeOrphans hid, Option.getD_some] at hdue
  omega

end Dates

/-! ### Orphans of a sweep -/

/-- An entry that buys or wishes for the order's item in its sub-type. -/
def ItemEntry.Covers (entry : ItemEntry) (o : Order) : Prop :=
  (OperationSet.has entry.operations "Buy" = true ∨ OperationSet.has entry.operations "WishList" = true) ∧
    entry.wfmId = o.itemId ∧ keyOf entry.subType = keyOf o.subtype.toEntity

/-- A cached buy order that nothing covers and neither blacklist names, while the trader buys. -/
structure Sweep.Orphaned (sweep : Sweep) (id : String) : Prop where
  buys : sweep.settings.hasTradeMode .buy = true
  order : ∃ o ∈ sweep.orders.buyOrders, o.id = id ∧ (∀ entry ∈ sweep.entries, ¬ entry.Covers o) ∧
    sweep.settings.general.isItemBlacklisted o.itemId o.subtype.toEntity .buy = false ∧
    sweep.settings.general.isItemBlacklisted o.itemId o.subtype.toEntity .wishList = false

/-- The last of these sweeps have all seen the order an orphan, the first of them at `s`. -/
def OrphanedSince (sweeps : List Sweep) (id : String) (s : Int) : Prop :=
  ∃ before first since, sweeps = before ++ first :: since ∧ first.now = s ∧
    ∀ sweep ∈ first :: since, sweep.Orphaned id

theorem orphaned_of_mem {settings : Settings} {entries : List ItemEntry} {orders : OrderList} {id : String}
    (h : id ∈ orphanBuyOrders settings entries orders) (now : Int) (due : List String) :
    Sweep.Orphaned ⟨settings, entries, orders, now, due⟩ id := by
  rw [orphanBuyOrders] at h
  split at h
  next hbuys =>
    obtain ⟨o, ho, rfl⟩ := List.mem_map.mp h
    obtain ⟨hmem, hkeep⟩ := List.mem_filter.mp ho
    simp only [Bool.and_eq_true, Bool.not_eq_true'] at hkeep
    obtain ⟨⟨huncovered, hbuy⟩, hwish⟩ := hkeep
    refine ⟨hbuys, o, hmem, rfl, ?_, hbuy, hwish⟩
    rintro entry hentry ⟨hoperation, hitem, hsub⟩
    rw [List.contains_eq_mem, decide_eq_false_iff_not] at huncovered
    refine huncovered (List.mem_map.mpr ⟨entry, List.mem_filter.mpr ⟨hentry, ?_⟩, ?_⟩)
    · exact Bool.or_eq_true_iff.mpr hoperation
    · rw [hitem, hsub]
  next => cases h

/-- One sweep more, and the orphan is seen there too. -/
theorem OrphanedSince.append {sweeps : List Sweep} {sweep : Sweep} {id : String} {s : Int}
    (h : OrphanedSince sweeps id s) (horphaned : sweep.Orphaned id) : OrphanedSince (sweeps ++ [sweep]) id s := by
  obtain ⟨before, first, since, rfl, hfirst, hall⟩ := h
  refine ⟨before, first, since ++ [sweep], List.append_assoc _ _ _, hfirst, fun x hx => ?_⟩
  rw [← List.cons_append, List.mem_append] at hx
  rcases hx with hold | hnew
  · exact hall x hold
  · cases List.mem_singleton.mp hnew
    exact horphaned

theorem OrphanedSince.start {sweeps : List Sweep} {sweep : Sweep} {id : String}
    (horphaned : sweep.Orphaned id) : OrphanedSince (sweeps ++ [sweep]) id sweep.now := by
  refine ⟨sweeps, sweep, [], rfl, rfl, fun x hx => ?_⟩
  cases List.mem_singleton.mp hx
  exact horphaned

/-! ### Over any moves -/

/-- What a sweep may rest on: a candidate to buy, and for each delete the sweeps of half an hour. -/
structure Sweep.Justified (earlier : List Sweep) (sweep : Sweep) : Prop where
  candidate : ∃ entry ∈ sweep.entries, OperationSet.has entry.operations "Buy" = true
  due : ∀ id ∈ sweep.due, ∃ s, s + orphanGrace ≤ sweep.now ∧ OrphanedSince (earlier ++ [sweep]) id s

structure Dated (d : Desk) : Prop where
  seen : ∀ id s, firstSeenAt d.seen id = some s → OrphanedSince d.sweeps id s
  justified : Throughout (fun earlier sweep => sweep.Justified earlier) d.sweeps

section Steps

variable {E : Type} {out : OrdersOutside E} {d d' : Desk}

theorem Dated.sweep (h : Dated d) (settings : Settings) {entries : List ItemEntry} (now : Int)
    (hsweep : shouldSweep false entries = true) : Dated (d.sweep settings entries now) := by
  have hseen : ∀ id s, firstSeenAt (d.sweep settings entries now).seen id = some s →
      OrphanedSince (d.sweep settings entries now).sweeps id s := by
    intro id s hs
    have hid := mem_orphans_of_seen hs
    have hdate : firstSeenAt (seeOrphans d.seen (orphanBuyOrders settings entries d.orders.cacheOrders) now) id =
        some ((firstSeenAt d.seen id).getD now) := firstSeenAt_seeOrphans hid
    rw [Desk.sweep] at hs
    rw [hs] at hdate
    cases hold : firstSeenAt d.seen id with
    | some s' =>
        rw [hold, Option.getD_some] at hdate
        cases hdate
        exact (h.seen id s hold).append (orphaned_of_mem hid now _)
    | none =>
        rw [hold, Option.getD_none] at hdate
        cases hdate
        exact .start (orphaned_of_mem hid now _)
  have hnew : Sweep.Justified d.sweeps (.mk settings entries d.orders.cacheOrders now
      (dueOrphans d.seen (orphanBuyOrders settings entries d.orders.cacheOrders) now orphanGrace)) := by
    refine ⟨List.any_eq_true.mp hsweep, fun id hid => ?_⟩
    obtain ⟨s, hs, hdue⟩ := mem_dueOrphans hid
    exact ⟨s, hdue, hseen id s hs⟩
  exact ⟨hseen, throughout_concat.mpr ⟨h.justified, hnew⟩⟩

theorem Dated.move (h : Dated d) (hmove : Move out d d') : Dated d' := by
  cases hmove with
  | turn processing => exact ⟨h.seen, h.justified⟩
  | look wfmId subType orderType hwarm => exact ⟨h.seen, h.justified⟩
  | write hallow hdoes => exact ⟨h.seen, h.justified⟩
  | turnTo entry warm => exact ⟨h.seen, h.justified⟩
  | blocked entry orderType route wishList victim => exact ⟨h.seen, h.justified⟩
  | sweep settings now hsweep => exact h.sweep settings now hsweep

theorem Dated.moves (h : Dated d) (hmoves : Moves out d d') : Dated d' := by
  induction hmoves with
  | refl => exact h
  | tail _ hmove ih => exact ih.move hmove

end Steps

/-! ### What a sweep deletes, and when there is one -/

section Sweeps

variable {E F : Type} {num : PriceFloats F} {out : Outside E} {ctx : TradeContext F}

/-- What a delete of one of these ids may do. -/
def Action.Deletes (ids : List String) : Action → Prop
  | .delete id => id ∈ ids
  | .refresh => True
  | .create _ _ | .update _ _ | .updateLocal _ _ => False

def Step.Deletes (ids : List String) : Step → Prop
  | .lookup .. | .turn _ | .blocked .. => False
  | .write w => w.action.Deletes ids

theorem Step.IsRefresh.deletes {ids : List String} {step : Step} (h : step.IsRefresh) : step.Deletes ids := by
  cases step with
  | write write =>
      have haction : write.action = .refresh := h
      rw [Step.Deletes, haction]
      trivial
  | lookup => cases h
  | turn => cases h
  | blocked => cases h

/-- The deletes of these ids since a world, and nothing else. -/
structure DeletedSince (ids : List String) (w t : World E) : Prop where
  sweeps : t.sweeps = w.sweeps
  trace : ∃ steps, t.trace = w.trace ++ steps ∧ ∀ step ∈ steps, step.Deletes ids

theorem DeletedSince.deleted {ids : List String} {w t u : World E} (h : DeletedSince ids w t) {id : String}
    (hid : id ∈ ids) (hwrote : Wrote out.toOrdersOutside (.delete id) t u) : DeletedSince ids w u := by
  refine ⟨hwrote.sweeps.trans h.sweeps, ?_⟩
  obtain ⟨steps, htrace, hsteps⟩ := h.trace
  obtain ⟨sent, succeeded, after, rest, -, htrace', hrest, -⟩ := hwrote.wrote
  refine ⟨steps ++ .write ⟨.delete id, sent, t.processing, succeeded, after⟩ :: rest, ?_, fun step hstep => ?_⟩
  · rw [htrace', htrace, List.append_assoc]
  · rcases List.mem_append.mp hstep with hold | hnew
    · exact hsteps step hold
    · rcases List.mem_cons.mp hnew with rfl | hrefresh
      · exact hid
      · exact (hrest step hrefresh).deletes

theorem tryDelete_deletedSince {ids : List String} (w : World E) {id : String} (hid : id ∈ ids) :
    Keeps (DeletedSince ids w) (tryDelete out id) := by
  have hdelete : Keeps (DeletedSince ids w) (delete out.toOrdersOutside id) := fun t h =>
    wp_mono (delete_wrote _ id t) fun _ u hwrote => h.deleted hid hwrote
  exact hdelete.attempt.bind fun _ => .pure ()

/-- A sweep is told once, and deletes only what is due. -/
structure Sweep.Ran (ctx : TradeContext F) (entries : List ItemEntry) (w t : World E) (sweep : Sweep) : Prop where
  told : t.sweeps = w.sweeps ++ [sweep]
  settings : sweep.settings = ctx.settings
  entries : sweep.entries = entries
  orders : sweep.orders = w.orders.cacheOrders
  trace : ∃ steps, t.trace = w.trace ++ steps ∧ ∀ step ∈ steps, step.Deletes sweep.due

theorem sweepOrphans_ran (entries : List ItemEntry) (w : World E) :
    (sweepOrphans out ctx entries).wp (fun _ t => ∃ sweep, Sweep.Ran ctx entries w t sweep) w := by
  rw [sweepOrphans, wp_bind, ask, wp_act, next_ok, wp_bind, wp_read, next_ok, wp_bind, wp_read, next_ok,
    wp_bind, wp_change, next_ok]
  refine wp_mono (Keeps.each (I := DeletedSince _ _) (fun id hid => tryDelete_deletedSince _ hid) _
    ⟨rfl, [], (List.append_nil _).symm, fun step hstep => by cases hstep⟩) fun _ t ht => ?_
  exact ⟨_, ht.sweeps, rfl, rfl, rfl, ht.trace⟩

/-- A cycle that was cut short, or has no candidate to buy, ends with the global knapsack. -/
theorem processItems_unswept {items : List ItemEntry} {w u : World E} {interrupted : Bool} {existing : List String}
    (hentries : (processEntries num out ctx (byPriority items)).exec w = (.ok (interrupted, existing), u))
    (hnone : interrupted = true ∨ ∀ entry ∈ items, OperationSet.has entry.operations "Buy" = false) :
    ((processItems num out ctx items).exec w).2 = ((holdCap num out ctx existing).exec u).2 := by
  have hsweep : shouldSweep interrupted (byPriority items) = false := by
    rcases hnone with rfl | hnone
    · rfl
    · refine Bool.and_eq_false_iff.mpr (.inr (List.any_eq_false.mpr fun entry hentry => ?_))
      rw [hnone entry ((List.perm_insertionSort _ items).mem_iff.mp hentry)]
      exact Bool.false_ne_true
  have hrun : (processItems num out ctx items).wp
      (fun _ t => t = ((holdCap num out ctx existing).exec u).2) w := by
    rw [processItems, wp_bind, wp, hentries]
    dsimp only
    rw [next_ok]
    dsimp only
    refine wp_seq (I := fun t => t = ((holdCap num out ctx existing).exec u).2) rfl (fun _ t ht => ?_)
      fun _ t ht => ht
    rw [hsweep]
    exact ht
  exact hrun

end Sweeps

/-! ### Over any cycles -/

section Runs

variable {E F : Type} (num : PriceFloats F) (out : Outside E)

theorem Dated.round (r : Round F) {w : World E} (h : Dated (w.desk none)) : Dated ((r.run num out w).desk none) := by
  have hstart : Dated (World.desk { w with orders := w.orders.mapLive r.meanwhile } none) :=
    ⟨h.seen, h.justified⟩
  have hreached : Reached out.toOrdersOutside _ (w.orders.mapLive r.meanwhile).globalDryRun (r.run num out w) :=
    check_reached _ ⟨_, none, .refl, rfl, rfl⟩
  obtain ⟨p, looked, hat⟩ := hreached
  have hend := hstart.moves hat.moves
  exact ⟨hend.seen, hend.justified⟩

/-- Over any cycles, a sweep deletes an order only when the sweeps of the last half hour have all seen it an
orphan; a cycle that was cut short, or has no candidate to buy, does not sweep. -/
theorem orphan_grace (orders : TradeOrders) (rs : List (Round F)) (ext : E) :
    (∀ earlier sweep later, (rounds num out rs (.start orders ext)).sweeps = earlier ++ sweep :: later →
      sweep.Justified earlier) ∧
    (∀ (ctx : TradeContext F) entries (w : World E),
      ∃ sweep, Sweep.Ran ctx entries w ((sweepOrphans out ctx entries).exec w).2 sweep) ∧
    ∀ (ctx : TradeContext F) items (w u : World E) interrupted existing,
      (processEntries num out ctx (byPriority items)).exec w = (.ok (interrupted, existing), u) →
      (interrupted = true ∨ ∀ entry ∈ items, OperationSet.has entry.operations "Buy" = false) →
      ((processItems num out ctx items).exec w).2 = ((holdCap num out ctx existing).exec u).2 := by
  have hrun : Dated ((rounds num out rs (.start orders ext)).desk none) := by
    refine List.foldlRecOn rs _ (motive := fun w : World E => Dated (w.desk none)) ?_
      fun w hw r _ => hw.round num out r
    refine ⟨fun id s hseen => ?_, throughout_nil⟩
    cases hseen
  exact ⟨hrun.justified, fun ctx entries w => sweepOrphans_ran entries w,
    fun ctx items w u interrupted existing hentries hnone => processItems_unswept hentries hnone⟩

end Runs

/-- A willing market whose clock moves on by half an hour. -/
def Outside.ticking (entries : List ItemEntry) (book : LiveOrders) : Outside Nat :=
  { Outside.willing entries book with now := fun n => (n * orphanGrace, n + 1) }

/-- No entry buys the prism in two cycles, and the second deletes its order. -/
theorem orphan_grace_prism :
    ∃ earlier sweep, (rounds PriceFloats.whole (.ticking [.bid "lens"] .spread)
        [⟨id, .sample .plain true⟩, ⟨id, .sample .plain true⟩]
        (.start (.new (some ⟨.new [cachedBid "1" "prism" 1 5], 100⟩) false) 0)).sweeps = earlier ++ [sweep] ∧
      sweep.due = ["1"] ∧ sweep.Justified earlier := by
  have hdue : ((rounds PriceFloats.whole (.ticking [.bid "lens"] .spread)
      [⟨id, .sample .plain true⟩, ⟨id, .sample .plain true⟩]
      (.start (.new (some ⟨.new [cachedBid "1" "prism" 1 5], 100⟩) false) 0)).sweeps.getLast?.map Sweep.due) =
        some ["1"] := by
    decide +kernel
  obtain ⟨sweep, hlast, hdue⟩ := Option.map_eq_some_iff.mp hdue
  obtain ⟨earlier, hsweeps⟩ := List.getLast?_eq_some_iff.mp hlast
  exact ⟨earlier, sweep, hsweeps, hdue, (orphan_grace _ _ _ _ 0).1 earlier sweep [] hsweeps⟩

end Quantframe.Trader
