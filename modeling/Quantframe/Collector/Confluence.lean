import Quantframe.Collector.Relists

/-!
# Resolution does not depend on the schedule

The complete history of sweeps decides what a pending vanish becomes. A run that finds its window
closed decides the same, as long as no sweep repeats the offer after it in the window's last second.
-/

namespace Quantframe.Collector

open Lib

/-! ### What the sweeps alone say -/

/-- The orders the sweeps saw for the first time. -/
def sightings (earlier : List SweepInput) : List SweepInput → List (SweepInput × V2Order)
  | [] => []
  | s :: later => (firstSeen earlier s).map (fun o => (s, o)) ++ sightings (earlier ++ [s]) later

/-- A matching order was first seen strictly after the vanish and within the window. -/
def relistedIn (cfg : StatsConfig) (sweeps : List SweepInput) (row : VanishedRow) (vanished : Int) : Bool :=
  (sightings [] sweeps).any fun (s, o) =>
    decide (row.itemId = s.itemId ∧ (o.toSeen "").SameOffer row.order ∧
      vanished < wholeSeconds s.sweptAt ∧ wholeSeconds s.sweptAt ≤ vanished + cfg.relistWindow)

def afterSweepInputs (clock : Clock) (db : Tables) (sweeps : List SweepInput) : Tables :=
  sweeps.foldl (fun db s => (applySweep clock db s).1) db

/-- What the complete history of sweeps makes of a pending vanish. -/
def verdict (clock : Clock) (cfg : StatsConfig) (db : Tables) (sweeps : List SweepInput)
    (row : VanishedRow) (vanished : Int) : Resolution :=
  resolveVanish
    (bulkCount clock cfg (afterSweepInputs clock db sweeps).vanishedOrders row.order.userId vanished)
    (relistedIn cfg sweeps row vanished) cfg

def Event.at_ : Event → Int
  | .sweep s => s.sweptAt
  | .resolve now => now

/-- Every event happens at its time, and no two sweeps at the same. -/
structure Scheduled (events : List Event) : Prop where
  inOrder : events.Pairwise fun e e' => e.at_ ≤ e'.at_
  apart : (sweepsOf events).Pairwise fun s s' => s.sweptAt < s'.sweptAt

section Statements

variable (clock : Clock) (cfg : StatsConfig) (db : Tables) (events : List Event)

/-- A vanish that is not pending stays as it is; a pending one stays so under runs before the end of its window and gets
its verdict from the first run whose clock is there. -/
structure Confluent : Prop where
  settled : ∀ pre post, events = pre ++ post → ∀ (i : Nat) (row : VanishedRow),
    (afterEvents clock cfg db pre).vanishedOrders[i]? = some row → row.status ≠ "pending" →
      (afterEvents clock cfg db events).vanishedOrders[i]? = some row
  waits : ∀ pre mid post, events = pre ++ mid ++ post → ∀ (i : Nat) (row : VanishedRow) v,
    (afterEvents clock cfg db pre).vanishedOrders[i]? = some row → row.status = "pending" →
      clock.parseTs row.vanishedAt = some v → (∀ now, .resolve now ∈ mid → now < v + cfg.relistWindow) →
        (afterEvents clock cfg db (pre ++ mid)).vanishedOrders[i]? = some row
  decided : ∀ pre now post, events = pre ++ .resolve now :: post → ∀ (i : Nat) (row : VanishedRow) v,
    (afterEvents clock cfg db pre).vanishedOrders[i]? = some row → row.status = "pending" →
      clock.parseTs row.vanishedAt = some v → v + cfg.relistWindow ≤ now →
        (afterEvents clock cfg db events).vanishedOrders[i]? =
          some { row with status := (verdict clock cfg db (sweepsOf events) row v).asStr }

/-- No sweep repeats, after the vanish and within its window, the offer of a vanish that has already
become a trade. -/
def ClosedForGood : Prop :=
  ∀ pre s post, events = pre ++ .sweep s :: post → ∀ o ∈ firstSeen (sweepsOf pre) s,
    ∀ row ∈ (afterEvents clock cfg db pre).vanishedOrders, row.kind = "full" → row.status = "trade" →
      row.itemId = s.itemId → (o.toSeen "").SameOffer row.order →
        ∀ v, clock.parseTs row.vanishedAt = some v → v < wholeSeconds s.sweptAt →
          v + cfg.relistWindow < wholeSeconds s.sweptAt

/-- The bulk window is over, in whole seconds, when the relist window is. -/
def BulkFirst : Prop := wholeSeconds (cfg.bulkWindow.tdiv 2) < wholeSeconds cfg.relistWindow

/-- All instants that the queries spell are valid. -/
structure SpellsAll (valid : Int → Prop) : Prop where
  sweeps : Spells cfg events valid
  bulk : ∀ s ∈ sweepsOf events, valid (wholeSeconds s.sweptAt - cfg.bulkWindow.tdiv 2) ∧
    valid (wholeSeconds s.sweptAt + cfg.bulkWindow.tdiv 2)
  runs : ∀ now, .resolve now ∈ events → valid (now - cfg.relistWindow)

end Statements

section

variable {clock : Clock} {cfg : StatsConfig} {db : Tables} {events : List Event} {valid : Int → Prop}

theorem mem_sightings {earlier sweeps : List SweepInput} {p : SweepInput × V2Order} :
    p ∈ sightings earlier sweeps ↔
      ∃ pre post, sweeps = pre ++ p.1 :: post ∧ p.2 ∈ firstSeen (earlier ++ pre) p.1 := by
  induction sweeps generalizing earlier with
  | nil => simp [sightings]
  | cons s sweeps ih =>
      rw [sightings, List.mem_append, ih]
      constructor
      · rintro (hnow | ⟨pre, post, hsweeps, ho⟩)
        · obtain ⟨o, ho, rfl⟩ := List.mem_map.mp hnow
          exact ⟨[], sweeps, rfl, by rwa [List.append_nil]⟩
        · refine ⟨s :: pre, post, by rw [hsweeps, List.cons_append], ?_⟩
          rwa [List.append_assoc, List.singleton_append] at ho
      · rintro ⟨pre, post, hsweeps, ho⟩
        cases pre with
        | nil =>
            rw [List.nil_append, List.cons.injEq] at hsweeps
            obtain ⟨rfl, -⟩ := hsweeps
            rw [List.append_nil] at ho
            exact .inl (List.mem_map.mpr ⟨p.2, ho, rfl⟩)
        | cons s' pre =>
            rw [List.cons_append, List.cons.injEq] at hsweeps
            obtain ⟨rfl, hsweeps⟩ := hsweeps
            exact .inr ⟨pre, post, hsweeps, by rwa [List.append_assoc, List.singleton_append]⟩

/-- A sweep of the history is an event of it. -/
theorem sweepsOf_split {pre post : List SweepInput} {s : SweepInput}
    (h : sweepsOf events = pre ++ s :: post) :
    ∃ pre' post', events = pre' ++ .sweep s :: post' ∧ sweepsOf pre' = pre ∧ sweepsOf post' = post := by
  obtain ⟨pre', rest, rfl, hpre, hrest⟩ := List.filterMap_eq_append_iff.mp h
  obtain ⟨skipped, e, post', rfl, hskipped, he, hpost⟩ := List.filterMap_eq_cons_iff.mp hrest
  have hsweep : e = .sweep s := by
    cases e with
    | sweep s' =>
        cases he
        rfl
    | resolve now => cases he
  subst hsweep
  refine ⟨pre' ++ skipped, post', by rw [List.append_assoc], ?_, hpost⟩
  rw [sweepsOf_append, show sweepsOf skipped = [] from List.filterMap_eq_nil_iff.mpr hskipped,
    List.append_nil]
  exact hpre

/-- Resolutions change neither the sweep state nor the facts that sweeps write. -/
theorem sameFacts_afterSweepInputs (events : List Event) :
    SameFacts (afterSweepInputs clock db (sweepsOf events)) (afterEvents clock cfg db events) ∧
      (afterEvents clock cfg db events).sweepState =
        (afterSweepInputs clock db (sweepsOf events)).sweepState := by
  induction events using List.reverseRecOn with
  | nil => exact ⟨.refl db, rfl⟩
  | append_singleton events e ih =>
      obtain ⟨hfacts, hstate⟩ := ih
      rw [afterEvents_snoc, sweepsOf_append]
      cases e with
      | resolve now =>
          have hsame : sweepsOf events ++ sweepsOf [.resolve now] = sweepsOf events := List.append_nil _
          rw [hsame, Event.apply, resolvePending_sweepState, hstate]
          exact ⟨hfacts.trans (sameFacts_resolvePending _ now), rfl⟩
      | sweep s =>
          have hnext : afterSweepInputs clock db (sweepsOf events ++ sweepsOf [.sweep s]) =
              (applySweep clock (afterSweepInputs clock db (sweepsOf events)) s).1 := by
            rw [afterSweepInputs, List.foldl_append]
            rfl
          rw [hnext]
          exact hfacts.applySweep hstate s

/-- The vanishes of later events carry the times of their sweeps. -/
theorem vanishes_extend (events later : List Event) :
    ∃ extra : List VanishedRow,
      (afterEvents clock cfg db (events ++ later)).vanishedOrders.map VanishedRow.facts =
        (afterEvents clock cfg db events).vanishedOrders.map VanishedRow.facts ++ extra ∧
      ∀ row ∈ extra, ∃ s ∈ sweepsOf later, row.vanishedAt = clock.ts s.sweptAt := by
  induction later using List.reverseRecOn with
  | nil => exact ⟨[], by rw [List.append_nil, List.append_nil], fun _ h => absurd h List.not_mem_nil⟩
  | append_singleton later e ih =>
      obtain ⟨extra, hextra, hstamped⟩ := ih
      rw [← List.append_assoc, afterEvents_snoc, sweepsOf_append]
      have hold : ∀ row ∈ extra, ∃ s ∈ sweepsOf later ++ sweepsOf [e], row.vanishedAt = clock.ts s.sweptAt := by
        intro row hrow
        obtain ⟨s, hs, hstamp⟩ := hstamped row hrow
        exact ⟨s, List.mem_append_left _ hs, hstamp⟩
      cases e with
      | resolve now =>
          refine ⟨extra, ?_, hold⟩
          rw [Event.apply, (sameFacts_resolvePending _ now).vanished, hextra]
      | sweep s =>
          obtain ⟨gap, status, hvanished, _⟩ :=
            applySweep_vanished clock (afterEvents clock cfg db (events ++ later)) s
          refine ⟨extra ++ (vanishRows s.itemId (clock.ts s.sweptAt) gap status (diffOrders
            ((afterEvents clock cfg db (events ++ later)).liveSet s.itemId)
            (toSeen s.orders (clock.ts s.sweptAt)))).map VanishedRow.facts, ?_, ?_⟩
          · rw [Event.apply, hvanished, List.map_append, hextra, List.append_assoc]
          · intro row hrow
            rcases List.mem_append.mp hrow with hrow | hrow
            · exact hold row hrow
            · obtain ⟨row', hrow', rfl⟩ := List.mem_map.mp hrow
              exact ⟨s, List.mem_append_right _ List.mem_cons_self, (mem_vanishRows_live _ hrow').2.1⟩

/-- No run touches a row that is not due. -/
theorem unchanged_later {i : Nat} {row : VanishedRow} {later : List Event}
    (hrow : (afterEvents clock cfg db events).vanishedOrders[i]? = some row)
    (hwaits : ∀ now, .resolve now ∈ later → ¬ Due clock cfg now row) :
    (afterEvents clock cfg db (events ++ later)).vanishedOrders[i]? = some row := by
  induction later using List.reverseRecOn with
  | nil => rwa [List.append_nil]
  | append_singleton later e ih =>
      have hbefore := ih fun now hnow => hwaits now (List.mem_append_left _ hnow)
      rw [← List.append_assoc, afterEvents_snoc]
      cases e with
      | resolve now =>
          rw [Event.apply, resolvePending_getElem?, hbefore, Option.map_some, if_neg]
          exact hwaits now (List.mem_append_right _ List.mem_cons_self)
      | sweep s =>
          obtain ⟨gap, status, hvanished, _⟩ :=
            applySweep_vanished clock (afterEvents clock cfg db (events ++ later)) s
          rw [Event.apply, hvanished, List.getElem?_append_left (List.getElem?_eq_some_iff.mp hbefore).1]
          exact hbefore

/-- A row that is not pending is not touched again. -/
theorem settled_later {i : Nat} {row : VanishedRow} (later : List Event)
    (hrow : (afterEvents clock cfg db events).vanishedOrders[i]? = some row)
    (hsettled : row.status ≠ "pending") :
    (afterEvents clock cfg db (events ++ later)).vanishedOrders[i]? = some row :=
  unchanged_later hrow fun _ _ hdue => hsettled hdue.1

/-- The sweeps after a run come at its clock or later. -/
theorem Scheduled.after_run {pre post : List Event} {now : Int}
    (h : Scheduled (pre ++ .resolve now :: post)) : ∀ s ∈ sweepsOf post, now ≤ s.sweptAt := by
  intro s hs
  obtain ⟨e, he, hsweep⟩ := List.mem_filterMap.mp hs
  have hlater := (List.pairwise_cons.mp (List.pairwise_append.mp h.inOrder).2.1).1 e he
  cases e with
  | sweep s' =>
      cases hsweep
      exact hlater
  | resolve now' => cases hsweep

theorem add_wholeSeconds {v x : Int} (hv : wholeSeconds v = v) : wholeSeconds (v + x) = v + wholeSeconds x := by
  rw [wholeSeconds] at hv ⊢
  rw [wholeSeconds]
  omega

/-- The bulk window is complete when a run finds the relist window closed. -/
theorem bulkCount_later {pre post : List Event} {now v : Int} {userId : String}
    (hlawful : clock.Lawful valid) (hbulk : BulkFirst cfg) (hv : wholeSeconds v = v)
    (hhalf : valid (v + cfg.bulkWindow.tdiv 2)) (hat : ∀ s ∈ sweepsOf post, valid s.sweptAt)
    (hlater : ∀ s ∈ sweepsOf post, now ≤ s.sweptAt) (hclosed : v + cfg.relistWindow ≤ now) :
    bulkCount clock cfg (afterSweepInputs clock db (sweepsOf (pre ++ post))).vanishedOrders userId v =
      bulkCount clock cfg (afterEvents clock cfg db pre).vanishedOrders userId v := by
  obtain ⟨extra, hextra, hstamped⟩ := @vanishes_extend clock cfg db pre post
  have hnone : bulkCount clock cfg extra userId v = 0 := by
    rw [bulkCount, List.countP_eq_zero]
    intro row hrow
    obtain ⟨s, hs, hstamp⟩ := hstamped row hrow
    have hafter : ¬ row.vanishedAt ≤ clock.ts (v + cfg.bulkWindow.tdiv 2) := by
      rw [hstamp, hlawful.order _ _ (hat s hs) hhalf, add_wholeSeconds hv]
      have hswept := wholeSeconds_mono (hclosed.trans (hlater s hs))
      rw [add_wholeSeconds hv] at hswept
      rw [BulkFirst] at hbulk
      omega
    simp [hafter]
  rw [bulkCount_facts, ← (sameFacts_afterSweepInputs (pre ++ post)).1.vanished, hextra,
    bulkCount_facts (afterEvents clock cfg db pre).vanishedOrders]
  rw [bulkCount] at hnone
  rw [bulkCount, bulkCount, List.countP_append, hnone, Nat.add_zero]

/-- What a query finds, a sweep of the history has seen in the window. -/
theorem relistedIn_of_relisted {i : Nat} {row : VanishedRow} {v : Int} (hlawful : clock.Lawful valid)
    (htraced : Traced clock cfg db events) (hspells : Spells cfg events valid)
    (hvalid : valid v ∧ valid (v + cfg.relistWindow) ∧ wholeSeconds v = v)
    (h : relisted clock cfg (afterEvents clock cfg db events) i row v = true) (later : List SweepInput) :
    relistedIn cfg (sweepsOf events ++ later) row v = true := by
  obtain ⟨hv, huntil, hwhole⟩ := hvalid
  have hseen : ∀ itemId order, seenAgain clock cfg row v itemId order = true →
      SeenIn clock (sweepsOf events) itemId order →
      relistedIn cfg (sweepsOf events ++ later) row v = true := by
    rintro itemId order hagain ⟨pre, s, post, o, hsweeps, hitem, ho, hoffer, hstamp⟩
    rw [seenAgain, decide_eq_true_eq] at hagain
    obtain ⟨hrowItem, hrowOffer, hafter, hbefore⟩ := hagain
    have hs : s ∈ sweepsOf events := by
      rw [hsweeps]
      exact List.mem_append_right _ List.mem_cons_self
    have hat := (hspells s hs).1
    rw [hstamp, hlawful.lt_iff hv hat, hwhole] at hafter
    rw [hstamp, hlawful.order _ _ hat huntil] at hbefore
    refine List.any_eq_true.mpr ⟨(s, o), mem_sightings.mpr ⟨pre, post ++ later, ?_, ho⟩, ?_⟩
    · rw [hsweeps, List.append_assoc, List.cons_append]
    · exact decide_eq_true ⟨hrowItem.symm.trans hitem.symm, hoffer.trans hrowOffer, hafter,
        hbefore.trans (wholeSeconds_le _)⟩
  rw [relisted, Bool.or_eq_true] at h
  rcases h with h | h
  · obtain ⟨live, hlive, hagain⟩ := List.any_eq_true.mp h
    exact hseen _ _ hagain (htraced.liveSeen live hlive)
  · obtain ⟨⟨later', j⟩, hlater, hagain⟩ := List.any_eq_true.mp h
    rw [Bool.and_eq_true] at hagain
    exact hseen _ _ hagain.2 (htraced.vanishedSeen later'
      (List.mem_of_getElem? (List.mem_zipIdx_iff_getElem?.mp hlater)))

/-- An order seen after the vanish by a sweep before the run is found by the query. -/
theorem relisted_of_seen {pre rest : List Event} {s : SweepInput} {i : Nat} {row : VanishedRow} {v : Int}
    {o : V2Order} (hlawful : clock.Lawful valid)
    (htraced : Traced clock cfg db (pre ++ .sweep s :: rest))
    (hspells : Spells cfg (pre ++ .sweep s :: rest) valid)
    (hscheduled : Scheduled (pre ++ .sweep s :: rest))
    (hvalid : valid v ∧ valid (v + cfg.relistWindow) ∧ wholeSeconds v = v)
    (hrow : (afterEvents clock cfg db (pre ++ .sweep s :: rest)).vanishedOrders[i]? = some row)
    (hread : clock.parseTs row.vanishedAt = some v) (ho : o ∈ firstSeen (sweepsOf pre) s)
    (hitem : row.itemId = s.itemId) (hoffer : (o.toSeen "").SameOffer row.order)
    (hafter : v < wholeSeconds s.sweptAt) (huntil : wholeSeconds s.sweptAt ≤ v + cfg.relistWindow) :
    relisted clock cfg (afterEvents clock cfg db (pre ++ .sweep s :: rest)) i row v = true := by
  obtain ⟨hv, hend, hwhole⟩ := hvalid
  have hs : s ∈ sweepsOf (pre ++ .sweep s :: rest) := mem_sweepsOf
  have hat := (hspells s hs).1
  have hbase : i < vanishCount clock cfg db (pre ++ [.sweep s]) := by
    by_contra hlate
    obtain ⟨extra, hextra, hstamped⟩ := @vanishes_extend clock cfg db (pre ++ [.sweep s]) rest
    rw [List.append_assoc, List.singleton_append] at hextra
    have hfact := congrArg (fun l : List VanishedRow => l[i]?) hextra
    rw [List.getElem?_map, hrow, Option.map_some, List.getElem?_append_right] at hfact
    · obtain ⟨s', hs', hstamp⟩ := hstamped _ (List.mem_of_getElem? hfact.symm)
      have hrowat : row.vanishedAt = clock.ts s'.sweptAt := hstamp
      have hs'' : s' ∈ sweepsOf (pre ++ .sweep s :: rest) := by
        rw [sweepsOf_append]
        exact List.mem_append_right _ (List.mem_cons_of_mem _ hs')
      have hreads := hlawful.reads s'.sweptAt (hspells s' hs'').1
      rw [Clock.Reads, ← hrowat, hread] at hreads
      have hsorted := hscheduled.apart
      rw [sweepsOf_append] at hsorted
      have hlater := (List.pairwise_cons.mp (List.pairwise_append.mp hsorted).2.1).1 s' hs'
      have hmono := wholeSeconds_mono hlater.le
      rw [← Option.some.inj hreads] at hmono
      exact absurd hafter (not_lt.mpr hmono)
    · rw [List.length_map]
      exact not_lt.mp hlate
  refine relisted_of_evidence hbase (htraced.evidence pre s rest o rfl ho) hitem hoffer ?_ ?_
  · rw [hlawful.lt_iff hv hat, hwhole]
    exact hafter
  · rw [hlawful.order _ _ hat hend]
    have hmono := wholeSeconds_mono huntil
    rwa [wholeSeconds_idem] at hmono

theorem SpellsAll.init {later : List Event} (h : SpellsAll cfg (events ++ later) valid) :
    SpellsAll cfg events valid := by
  have hmem : ∀ s ∈ sweepsOf events, s ∈ sweepsOf (events ++ later) := by
    intro s hs
    rw [sweepsOf_append]
    exact List.mem_append_left _ hs
  exact ⟨fun s hs => h.sweeps s (hmem s hs), fun s hs => h.bulk s (hmem s hs),
    fun now hnow => h.runs now (List.mem_append_left _ hnow)⟩

theorem OwnIdsThroughout.prefix {later : List Event}
    (h : OwnIdsThroughout clock cfg db (events ++ later)) : OwnIdsThroughout clock cfg db events := by
  intro pre s post hevents
  exact h pre s (post ++ later) (by rw [hevents, List.append_assoc, List.cons_append])

theorem Scheduled.prefix {later : List Event} (h : Scheduled (events ++ later)) : Scheduled events := by
  have hapart := h.apart
  rw [sweepsOf_append] at hapart
  exact ⟨(List.pairwise_append.mp h.inOrder).1, (List.pairwise_append.mp hapart).1⟩

/-- The rows a sweep adds: full ones are pending or gap, partial ones are trades. -/
theorem vanishRows_status {itemId stamp status : String} {gap : Option Int} {diff : OrderDiff}
    {row : VanishedRow} (h : row ∈ vanishRows itemId stamp gap status diff) :
    (row.kind = "full" ∧ row.status = status) ∨ (row.kind = "partial" ∧ row.status = "trade") := by
  rcases List.mem_append.mp h with h | h
  · obtain ⟨o, _, rfl⟩ := List.mem_map.mp h
    exact .inl ⟨rfl, rfl⟩
  · obtain ⟨c, _, rfl⟩ := List.mem_map.mp h
    exact .inr ⟨rfl, rfl⟩

/-- Only full vanishes wait. -/
theorem pending_full (hblank : Blank db) (events : List Event) :
    ∀ row ∈ (afterEvents clock cfg db events).vanishedOrders, row.status = "pending" → row.kind = "full" := by
  induction events using List.reverseRecOn with
  | nil =>
      intro row hrow
      rw [afterEvents, List.foldl_nil, hblank.vanished] at hrow
      exact absurd hrow List.not_mem_nil
  | append_singleton events e ih =>
      intro row hrow hpending
      rw [afterEvents_snoc] at hrow
      cases e with
      | resolve now =>
          obtain ⟨i, hi⟩ := List.mem_iff_getElem?.mp hrow
          rw [Event.apply, resolvePending_getElem?] at hi
          obtain ⟨old, hold, hnew⟩ := Option.map_eq_some_iff.mp hi
          split at hnew
          · next hdue =>
              have hkind : row.kind = old.kind := by
                rw [← hnew]
                exact (fields_of_facts (facts_decided _ i old)).2.2.2
              rw [hkind]
              exact ih old (List.mem_of_getElem? hold) hdue.1
          · rw [← hnew] at hpending ⊢
            exact ih old (List.mem_of_getElem? hold) hpending
      | sweep s =>
          obtain ⟨gap, status, hvanished, _⟩ :=
            applySweep_vanished clock (afterEvents clock cfg db events) s
          rw [Event.apply, hvanished] at hrow
          rcases List.mem_append.mp hrow with hold | hnew
          · exact ih row hold hpending
          · rcases vanishRows_status hnew with ⟨hfull, _⟩ | ⟨_, htrade⟩
            · exact hfull
            · rw [hpending] at htrade
              exact absurd htrade (by decide)

/-- A full vanish that is a trade was pending when a run found its window closed. -/
theorem trade_decided (hblank : Blank db) (events : List Event) :
    ∀ (i : Nat) (row : VanishedRow), (afterEvents clock cfg db events).vanishedOrders[i]? = some row →
      row.kind = "full" → row.status = "trade" →
      ∃ pre now post old, events = pre ++ .resolve now :: post ∧
        (afterEvents clock cfg db pre).vanishedOrders[i]? = some old ∧ row.facts = old.facts ∧
          Due clock cfg now old := by
  induction events using List.reverseRecOn with
  | nil =>
      intro i row hrow
      rw [afterEvents, List.foldl_nil, hblank.vanished] at hrow
      cases hrow
  | append_singleton events e ih =>
      intro i row hrow hfull htrade
      have hearlier : ∀ row' : VanishedRow, (afterEvents clock cfg db events).vanishedOrders[i]? = some row' →
          row' = row → ∃ pre now post old, events ++ [e] = pre ++ .resolve now :: post ∧
            (afterEvents clock cfg db pre).vanishedOrders[i]? = some old ∧ row.facts = old.facts ∧
              Due clock cfg now old := by
        rintro row' hrow' rfl
        obtain ⟨pre, now, post, old, hevents, hrest⟩ := ih i row' hrow' hfull htrade
        exact ⟨pre, now, post ++ [e], old, by rw [hevents, List.append_assoc, List.cons_append], hrest⟩
      rw [afterEvents_snoc] at hrow
      cases e with
      | resolve now =>
          rw [Event.apply, resolvePending_getElem?] at hrow
          obtain ⟨old, hold, hnew⟩ := Option.map_eq_some_iff.mp hrow
          split at hnew
          · next hdue => exact ⟨events, now, [], old, rfl, hold, hnew ▸ facts_decided _ _ _, hdue⟩
          · exact hearlier old hold hnew
      | sweep s =>
          obtain ⟨gap, status, hvanished, hstatus⟩ :=
            applySweep_vanished clock (afterEvents clock cfg db events) s
          rw [Event.apply, hvanished] at hrow
          rcases lt_or_ge i (afterEvents clock cfg db events).vanishedOrders.length with hi | hi
          · rw [List.getElem?_append_left hi] at hrow
            exact hearlier row hrow rfl
          · rw [List.getElem?_append_right hi] at hrow
            rcases vanishRows_status (List.mem_of_getElem? hrow) with ⟨_, hgot⟩ | ⟨hpiece, _⟩
            · rw [htrade] at hgot
              rcases hstatus with hs | hs
              · exact absurd (hgot.trans hs) (by decide)
              · exact absurd (hgot.trans hs) (by decide)
            · rw [hfull] at hpiece
              exact absurd hpiece (by decide)

/-- A run that finds the window closed decides as the complete history does. -/
theorem verdict_complete {pre post : List Event} {now v : Int} {i : Nat} {row : VanishedRow}
    (hlawful : clock.Lawful valid) (hblank : Blank db) (htraced : Traced clock cfg db pre)
    (hspells : Spells cfg pre valid) (hscheduled : Scheduled pre)
    (hclosed : ClosedForGood clock cfg db (pre ++ .resolve now :: post))
    (hvalid : valid v ∧ valid (v + cfg.relistWindow) ∧ wholeSeconds v = v)
    (hrow : (afterEvents clock cfg db pre).vanishedOrders[i]? = some row)
    (hread : clock.parseTs row.vanishedAt = some v) (hdue : Due clock cfg now row)
    (hbulk : bulkCount clock cfg (afterSweepInputs clock db (sweepsOf
        (pre ++ .resolve now :: post))).vanishedOrders row.order.userId v =
      bulkCount clock cfg (afterEvents clock cfg db pre).vanishedOrders row.order.userId v) :
    decided clock cfg (afterEvents clock cfg db pre) i row =
      { row with status := (verdict clock cfg db (sweepsOf (pre ++ .resolve now :: post)) row v).asStr } := by
  have hdecided : decided clock cfg (afterEvents clock cfg db pre) i row =
      { row with status := (resolveVanish
          (bulkCount clock cfg (afterEvents clock cfg db pre).vanishedOrders row.order.userId v)
          (relisted clock cfg (afterEvents clock cfg db pre) i row v) cfg).asStr } := by
    rw [decided, hread]
  rw [verdict, hbulk]
  by_cases hfew : (bulkCount clock cfg (afterEvents clock cfg db pre).vanishedOrders row.order.userId v : Int) ≥
      cfg.bulkPullThreshold
  · rw [hdecided, resolveVanish, resolveVanish, if_pos hfew, if_pos hfew]
  rw [hdecided]
  congr 3
  cases hrelisted : relisted clock cfg (afterEvents clock cfg db pre) i row v with
  | true =>
      rw [sweepsOf_append]
      exact (relistedIn_of_relisted hlawful htraced hspells hvalid hrelisted _).symm
  | false =>
      symm
      rw [Bool.eq_false_iff]
      intro h
      obtain ⟨⟨s, o⟩, hmem, hmatch⟩ := List.any_eq_true.mp h
      obtain ⟨before, after, hsweeps, ho⟩ := mem_sightings.mp hmem
      obtain ⟨hitem, hoffer, hafter, huntil⟩ := of_decide_eq_true hmatch
      rw [List.nil_append] at ho
      obtain ⟨pre', post', hevents, rfl, -⟩ := sweepsOf_split hsweeps
      rcases List.append_eq_append_iff.mp hevents with ⟨mid, hpre, hmid⟩ | ⟨mid, hpre, hmid⟩
      · cases mid with
        | nil => cases hmid
        | cons e mid =>
            rw [List.cons_append, List.cons.injEq] at hmid
            obtain ⟨rfl, -⟩ := hmid
            -- the run made a trade of the vanish, and it is one when the sweep after the run begins
            have htrade : (afterEvents clock cfg db (pre ++ [.resolve now])).vanishedOrders[i]? =
                some { row with status := "trade" } := by
              rw [afterEvents_snoc, Event.apply, resolvePending_getElem?, hrow, Option.map_some, if_pos hdue,
                hdecided, hrelisted, resolveVanish, if_neg hfew]
              rfl
            have hstill := settled_later mid htrade (resolution_ne_pending .trade)
            rw [List.append_assoc, List.singleton_append, ← hpre] at hstill
            exact absurd (hclosed pre' s post' hevents o ho _ (List.mem_of_getElem? hstill)
              (pending_full hblank pre row (List.mem_of_getElem? hrow) hdue.1) rfl hitem hoffer v hread hafter)
              (not_lt.mpr huntil)
      · cases mid with
        | nil => cases hmid
        | cons e mid =>
            rw [List.cons_append, List.cons.injEq] at hmid
            obtain ⟨rfl, -⟩ := hmid
            subst hpre
            rw [relisted_of_seen hlawful htraced hspells hscheduled hvalid hrow hread ho hitem hoffer hafter
              huntil] at hrelisted
            cases hrelisted

/-- The stored time of a vanish is the second of its sweep. -/
theorem stamp_second {row : VanishedRow} {v : Int} (hlawful : clock.Lawful valid)
    (hspells : Spells cfg events valid) (hblank : Blank db)
    (hrow : row ∈ (afterEvents clock cfg db events).vanishedOrders)
    (hread : clock.parseTs row.vanishedAt = some v) :
    ∃ s ∈ sweepsOf events, row.vanishedAt = clock.ts s.sweptAt ∧ v = wholeSeconds s.sweptAt := by
  obtain ⟨s, hs, hat⟩ := vanish_stamped hblank events row hrow
  have hreads := hlawful.reads s.sweptAt (hspells s hs).1
  rw [Clock.Reads, ← hat, hread] at hreads
  exact ⟨s, hs, hat, Option.some.inj hreads⟩

/-- A row is due when the clock is at the end of its window. -/
theorem due_iff {row : VanishedRow} {v now : Int} {s : SweepInput} (hlawful : clock.Lawful valid)
    (hs : valid s.sweptAt) (hrun : valid (now - cfg.relistWindow)) (hat : row.vanishedAt = clock.ts s.sweptAt)
    (hv : v = wholeSeconds s.sweptAt) :
    Due clock cfg now row ↔ row.status = "pending" ∧ v + cfg.relistWindow ≤ now := by
  refine and_congr_right fun _ => ?_
  rw [hat, hlawful.order _ _ hs hrun, ← hv]
  constructor
  · intro h
    have hle := h.trans (wholeSeconds_le _)
    omega
  · intro h
    have hmono := wholeSeconds_mono (show v ≤ now - cfg.relistWindow by omega)
    rwa [hv, wholeSeconds_idem, ← hv] at hmono

end

/-- The runs of `resolve_pending` decide each pending vanish once, as the complete history of sweeps says,
exactly when no sweep repeats the offer of a vanish within its window after it has become a trade. -/
theorem resolution_confluent_iff (clock : Clock) (cfg : StatsConfig) (valid : Int → Prop) (db : Tables)
    (events : List Event) (hlawful : clock.Lawful valid) (hbulk : BulkFirst cfg) (hblank : Blank db)
    (hspells : SpellsAll cfg events valid) (hscheduled : Scheduled events)
    (hown : OwnIdsThroughout clock cfg db events) :
    Confluent clock cfg db events ↔ ClosedForGood clock cfg db events := by
  constructor
  · intro hconfluent pre s post hevents o ho row hrow hfull htrade hitem hoffer v hread hafter
    by_contra huntil
    obtain ⟨i, hi⟩ := List.mem_iff_getElem?.mp hrow
    have hfinal := hconfluent.settled pre (.sweep s :: post) hevents i row hi (by rw [htrade]; decide)
    obtain ⟨pre', now, post', old, hpre, hold, hfact, hdue⟩ := trade_decided hblank pre i row hi hfull htrade
    obtain ⟨_, horder, hat, _⟩ := fields_of_facts hfact
    have hspells' : SpellsAll cfg pre valid := by
      rw [hevents] at hspells
      exact hspells.init
    rw [hpre] at hspells'
    rw [hat] at hread
    obtain ⟨s', hs', hat', hv⟩ := stamp_second hlawful hspells'.init.sweeps hblank
      (List.mem_of_getElem? hold) hread
    have hend := ((due_iff hlawful (hspells'.init.sweeps s' hs').1
      (hspells'.runs now (List.mem_append_right _ List.mem_cons_self)) hat' hv).mp hdue).2
    have hdecided := hconfluent.decided pre' now (post' ++ .sweep s :: post)
      (by rw [hevents, hpre, List.append_assoc, List.cons_append]) i old v hold hdue.1 hread hend
    have hrelisted : relistedIn cfg (sweepsOf events) old v = true := by
      refine List.any_eq_true.mpr ⟨(s, o), mem_sightings.mpr ⟨sweepsOf pre, sweepsOf post, ?_, ho⟩, ?_⟩
      · rw [hevents, sweepsOf_append]
        rfl
      · refine decide_eq_true ⟨?_, ?_, hafter, not_lt.mp huntil⟩
        · rw [← hitem, (fields_of_facts hfact).1]
        · rw [← horder]
          exact hoffer
    have hstatus := congrArg VanishedRow.status (Option.some.inj (hfinal.symm.trans hdecided))
    dsimp only at hstatus
    rw [htrade, verdict, hrelisted] at hstatus
    exact resolveVanish_relisted _ cfg hstatus.symm
  · intro hclosed
    refine ⟨?_, ?_, ?_⟩
    · intro pre post hevents i row hrow hsettled
      subst hevents
      exact settled_later post hrow hsettled
    · intro pre mid post hevents i row v hrow hpending hread hopen
      subst hevents
      have hspells' := hspells.init
      obtain ⟨s, hs, hat, hv⟩ := stamp_second hlawful hspells'.init.sweeps hblank (List.mem_of_getElem? hrow) hread
      apply unchanged_later hrow
      intro now hnow hdue
      have hend := ((due_iff hlawful (hspells'.init.sweeps s hs).1
        (hspells'.runs now (List.mem_append_right _ hnow)) hat hv).mp hdue).2
      exact absurd (hopen now hnow) (not_lt.mpr hend)
    · intro pre now post hevents i row v hrow hpending hread hend
      subst hevents
      have hmem := List.mem_of_getElem? hrow
      obtain ⟨s, hs, hat, hv⟩ := stamp_second hlawful hspells.init.sweeps hblank hmem hread
      have hvalid := parsed_stamp hlawful hspells.init.sweeps ⟨s, hs, hat⟩ hread
      have hdue : Due clock cfg now row := (due_iff hlawful (hspells.init.sweeps s hs).1
        (hspells.runs now (List.mem_append_right _ List.mem_cons_self)) hat hv).mpr ⟨hpending, hend⟩
      have hbulkSame := @bulkCount_later clock cfg db valid pre (.resolve now :: post) now v row.order.userId
        hlawful hbulk hvalid.2.2 (hv ▸ (hspells.init.bulk s hs).2)
        (fun s' hs' => (hspells.sweeps s' (by rw [sweepsOf_append]; exact List.mem_append_right _ hs')).1)
        hscheduled.after_run hend
      have hdecided := verdict_complete hlawful hblank (Traced.run hblank pre hown.prefix)
        hspells.init.sweeps hscheduled.prefix hclosed hvalid hrow hread hdue hbulkSame
      have hnext : (afterEvents clock cfg db (pre ++ [.resolve now])).vanishedOrders[i]? =
          some { row with
            status := (verdict clock cfg db (sweepsOf (pre ++ .resolve now :: post)) row v).asStr } := by
        rw [afterEvents_snoc, Event.apply, resolvePending_getElem?, hrow, Option.map_some, if_pos hdue,
          hdecided]
      have hfinal := settled_later post hnext (resolution_ne_pending _)
      rwa [List.append_assoc, List.singleton_append] at hfinal

/-! ### The last second of a window -/

/-- A run in the second in which the window closes, and then a sweep in it. -/
def repeatedAtTheEnd : List Event :=
  [sweepAt 60 ["s1"], sweepAt 65 [], .resolve (minutes 185), sweepAt 185 ["s2"]]

/-- The run makes a trade of a vanish that the complete history calls a relist. -/
theorem end_of_window_depends_on_schedule :
    ¬ ∀ events, Scheduled events → Confluent morningClock {} unsweptTables events := by
  intro h
  have hscheduled : Scheduled repeatedAtTheEnd := ⟨by decide +kernel, by decide +kernel⟩
  have hverdict := (h _ hscheduled).decided [sweepAt 60 ["s1"], sweepAt 65 []] (minutes 185)
    [sweepAt 185 ["s2"]] rfl 0
    ⟨"item1", (offered "s1").toSeen "1970-01-01T01:00:00Z", 1, "1970-01-01T01:05:00Z", some 300, "full",
      "pending"⟩ (minutes 65) (by decide +kernel) rfl (by decide +kernel) (by decide +kernel)
  exact absurd hverdict (by decide +kernel)

instance {clock : Clock} {cfg : StatsConfig} {db : Tables} {events : List Event} :
    Decidable (ClosedForGood clock cfg db events) :=
  decidable_of_iff (∀ p ∈ sweepSteps [] events, ∀ o ∈ firstSeen (sweepsOf p.1) p.2,
    ∀ row ∈ (afterEvents clock cfg db p.1).vanishedOrders, row.kind = "full" → row.status = "trade" →
      row.itemId = p.2.itemId → (o.toSeen "").SameOffer row.order →
        ((clock.parseTs row.vanishedAt).all fun v => decide (v < wholeSeconds p.2.sweptAt →
          v + cfg.relistWindow < wholeSeconds p.2.sweptAt)) = true) <| by
    simp only [Option.all_eq_true, decide_eq_true_eq]
    constructor
    · intro h pre s post hevents
      exact h (pre, s) (mem_sweepSteps.mpr ⟨pre, post, rfl, hevents⟩)
    · intro h p hp
      obtain ⟨pre, post, hpre, hevents⟩ := mem_sweepSteps.mp hp
      rw [hpre]
      exact h pre p.2 post hevents

theorem resolution_confluent_replaced_later :
    Confluent morningClock {} unsweptTables replacedLater :=
  (resolution_confluent_iff morningClock {} Morning unsweptTables replacedLater morningClock_lawful
    (by unfold BulkFirst; decide) unsweptTables_blank
    ⟨by unfold Spells Morning; decide +kernel, by unfold Morning; decide +kernel, by
      intro now hnow
      simp only [replacedLater, sweepAt, List.mem_cons, reduceCtorEq, false_or, List.not_mem_nil,
        or_false, Event.resolve.injEq] at hnow
      subst hnow
      unfold Morning
      decide⟩
    ⟨by decide +kernel, by decide +kernel⟩
    (fun pre s post hevents => RepeatsLaterThroughout.own (by decide +kernel) pre s post hevents)).mpr
    (by decide +kernel)

end Quantframe.Collector
