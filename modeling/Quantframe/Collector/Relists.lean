import Quantframe.Collector.History

/-!
# Relists are not trades

A new order of the same user counts as a relist only if a later second than the vanish saw it first
and the sweep that saw it was written before the vanish was decided.
-/

namespace Quantframe.Collector

open Lib

section Statements

variable (clock : Clock) (cfg : StatsConfig) (db : Tables) (events : List Event)

/-- Vanish `i`, recorded by sweep `s` after `pre`, is of an offer that a new order `o` repeats within
the window, in `s` itself or in a later sweep `s'`. -/
structure Repeats (i : Nat) (row : VanishedRow) (pre : List Event) (s : SweepInput) (pre' : List Event)
    (s' : SweepInput) (o : V2Order) : Prop where
  recorded : (∃ post, events = pre ++ .sweep s :: post) ∧ vanishCount clock cfg db pre ≤ i ∧
    i < vanishCount clock cfg db (pre ++ [.sweep s])
  new : (∃ post, events = pre' ++ .sweep s' :: post) ∧ o ∈ firstSeen (sweepsOf pre') s'
  later : pre.length ≤ pre'.length
  window : wholeSeconds s'.sweptAt ≤ wholeSeconds s.sweptAt + cfg.relistWindow
  item : row.itemId = s'.itemId
  offer : (o.toSeen (clock.ts s'.sweptAt)).SameOffer row.order

/-- No full vanish of a repeated offer is a trade. -/
def NeverTrade : Prop :=
  ∀ i row, (afterEvents clock cfg db events).vanishedOrders[i]? = some row → row.kind = "full" →
    ∀ pre s pre' s' o, Repeats clock cfg db events i row pre s pre' s' o → row.status ≠ "trade"

/-- The sweep repeats no offer that it misses itself, and one that vanished before only in a later
second and before the vanish has become a trade. -/
structure RepeatsLater (earlier : List SweepInput) (before : Tables) (s : SweepInput) : Prop where
  own : OwnIds before s
  missing : ∀ o ∈ firstSeen earlier s, ∀ gone ∈ before.liveSet s.itemId, s.shows gone.orderId = false →
    ¬ (o.toSeen (clock.ts s.sweptAt)).SameOffer gone
  vanished : ∀ o ∈ firstSeen earlier s, ∀ row ∈ before.vanishedOrders, row.kind = "full" →
    row.itemId = s.itemId → (o.toSeen (clock.ts s.sweptAt)).SameOffer row.order →
      ∀ v, clock.parseTs row.vanishedAt = some v → wholeSeconds s.sweptAt ≤ v + cfg.relistWindow →
        v < wholeSeconds s.sweptAt ∧ row.status ≠ "trade"

def RepeatsLaterThroughout : Prop :=
  ∀ pre s post, events = pre ++ .sweep s :: post →
    RepeatsLater clock cfg (sweepsOf pre) (afterEvents clock cfg db pre) s

/-- The instants whose spelling the history depends on are valid. -/
def Spells (valid : Int → Prop) : Prop :=
  ∀ s ∈ sweepsOf events, valid s.sweptAt ∧ valid (wholeSeconds s.sweptAt) ∧
    valid (wholeSeconds s.sweptAt + cfg.relistWindow)

end Statements

section

variable {clock : Clock} {cfg : StatsConfig} {db : Tables} {events : List Event} {valid : Int → Prop}

theorem RepeatsLaterThroughout.own (h : RepeatsLaterThroughout clock cfg db events) :
    OwnIdsThroughout clock cfg db events :=
  fun pre s post hevents => (h pre s post hevents).own

theorem RepeatsLaterThroughout.init {e : Event}
    (h : RepeatsLaterThroughout clock cfg db (events ++ [e])) :
    RepeatsLaterThroughout clock cfg db events := by
  intro pre s post hevents
  exact h pre s (post ++ [e]) (by rw [hevents, List.append_assoc, List.cons_append])

theorem Spells.init {e : Event} (h : Spells cfg (events ++ [e]) valid) : Spells cfg events valid := by
  intro s hs
  refine h s ?_
  rw [sweepsOf_append]
  exact List.mem_append_left _ hs

instance (before : Tables) (s : SweepInput) : Decidable (OwnIds before s) :=
  decidable_of_iff (∀ o ∈ s.orders, o.visible = true →
    ((before.lastSeenOrders.lookup o.id).all fun row => decide (row.itemId = s.itemId)) = true) <| by
      simp only [OwnIds, Option.all_eq_true, decide_eq_true_eq]

instance (earlier : List SweepInput) (before : Tables) (s : SweepInput) :
    Decidable (RepeatsLater clock cfg earlier before s) :=
  decidable_of_iff (OwnIds before s ∧
    (∀ o ∈ firstSeen earlier s, ∀ gone ∈ before.liveSet s.itemId, s.shows gone.orderId = false →
      ¬ (o.toSeen (clock.ts s.sweptAt)).SameOffer gone) ∧
    ∀ o ∈ firstSeen earlier s, ∀ row ∈ before.vanishedOrders, row.kind = "full" →
      row.itemId = s.itemId → (o.toSeen (clock.ts s.sweptAt)).SameOffer row.order →
        ((clock.parseTs row.vanishedAt).all fun v => decide (wholeSeconds s.sweptAt ≤ v + cfg.relistWindow →
          v < wholeSeconds s.sweptAt ∧ row.status ≠ "trade")) = true) <| by
    simp only [Option.all_eq_true, decide_eq_true_eq]
    exact ⟨fun h => ⟨h.1, h.2.1, h.2.2⟩, fun h => ⟨h.own, h.missing, h.vanished⟩⟩

instance : Decidable (RepeatsLaterThroughout clock cfg db events) :=
  decidable_of_iff (∀ p ∈ sweepSteps [] events,
    RepeatsLater clock cfg (sweepsOf p.1) (afterEvents clock cfg db p.1) p.2) <| by
    constructor
    · intro h pre s post hevents
      exact h (pre, s) (mem_sweepSteps.mpr ⟨pre, post, rfl, hevents⟩)
    · intro h p hp
      obtain ⟨pre, post, hpre, hevents⟩ := mem_sweepSteps.mp hp
      rw [hpre]
      exact h pre p.2 post hevents

/-- What is kept of a repeated vanish while it waits: the new order came in a later second, and no
resolution has made a trade of it. -/
def Kept (clock : Clock) (cfg : StatsConfig) (db : Tables) (events : List Event) : Prop :=
  ∀ i row, (afterEvents clock cfg db events).vanishedOrders[i]? = some row → row.kind = "full" →
    ∀ pre s post o, events = pre ++ .sweep s :: post → o ∈ firstSeen (sweepsOf pre) s →
      i < vanishCount clock cfg db (pre ++ [.sweep s]) → row.itemId = s.itemId →
        (o.toSeen (clock.ts s.sweptAt)).SameOffer row.order →
          ∀ v, clock.parseTs row.vanishedAt = some v → wholeSeconds s.sweptAt ≤ v + cfg.relistWindow →
            v < wholeSeconds s.sweptAt ∧ row.status ≠ "trade"

theorem mem_sweepsOf {pre post : List Event} {s : SweepInput} :
    s ∈ sweepsOf (pre ++ .sweep s :: post) := by
  rw [sweepsOf_append]
  exact List.mem_append_right _ List.mem_cons_self

/-- The time of a vanish, read back. -/
theorem parsed_stamp (hlawful : clock.Lawful valid) (hspells : Spells cfg events valid)
    {stamp : String} {v : Int} (hstamp : ∃ s ∈ sweepsOf events, stamp = clock.ts s.sweptAt)
    (hv : clock.parseTs stamp = some v) :
    valid v ∧ valid (v + cfg.relistWindow) ∧ wholeSeconds v = v := by
  obtain ⟨s, hs, rfl⟩ := hstamp
  obtain ⟨hat, hwhole, huntil⟩ := hspells s hs
  have hreads := hlawful.reads s.sweptAt hat
  rw [Clock.Reads, hv] at hreads
  cases hreads
  exact ⟨hwhole, huntil, wholeSeconds_idem _⟩

/-- Evidence in the window makes the query find a relist. -/
theorem relisted_of_evidence {i : Nat} {row : VanishedRow} {v : Int} {s : SweepInput} {o : V2Order}
    {base : Nat} (hi : i < base) (h : Evidence db base s.itemId (clock.ts s.sweptAt) o)
    (hitem : row.itemId = s.itemId) (hoffer : (o.toSeen (clock.ts s.sweptAt)).SameOffer row.order)
    (hafter : clock.ts v < clock.ts s.sweptAt)
    (huntil : clock.ts s.sweptAt ≤ clock.ts (v + cfg.relistWindow)) :
    relisted clock cfg db i row v = true := by
  have hseen : ∀ rowItem order, Attests s.itemId (clock.ts s.sweptAt) o rowItem order →
      seenAgain clock cfg row v rowItem order = true := by
    intro rowItem order hattests
    rw [seenAgain, decide_eq_true_eq, hattests.stamp]
    exact ⟨hattests.item.trans hitem.symm, hattests.offer.symm.trans hoffer, hafter, huntil⟩
  rw [relisted, Bool.or_eq_true]
  rcases h with ⟨live, hlive, hattests⟩ | ⟨j, later, hj, hlater, hattests⟩
  · exact .inl (List.any_eq_true.mpr ⟨live, Table.mem_of_lookup hlive.1, hseen _ _ hattests⟩)
  · refine .inr (List.any_eq_true.mpr ⟨(later, j), List.mem_zipIdx_iff_getElem?.mpr hlater, ?_⟩)
    simp only [Bool.and_eq_true, decide_eq_true_eq]
    exact ⟨(lt_of_lt_of_le hi hj).ne', hseen _ _ hattests⟩

theorem decided_not_trade {i : Nat} {row : VanishedRow} {v : Int}
    (hv : clock.parseTs row.vanishedAt = some v) (hrelisted : relisted clock cfg db i row v = true) :
    (decided clock cfg db i row).status ≠ "trade" := by
  rw [decided, hv]
  dsimp only
  rw [hrelisted]
  exact resolveVanish_relisted _ cfg

theorem Kept.resolve (h : Kept clock cfg db events) (htraced : Traced clock cfg db events)
    (hblank : Blank db) (hlawful : clock.Lawful valid) (hspells : Spells cfg events valid) (now : Int) :
    Kept clock cfg db (events ++ [.resolve now]) := by
  intro i row hrow hfull pre s post o hevents ho hi hitem hoffer v hv hwindow
  rcases split_snoc hevents with ⟨_, _, hlast⟩ | ⟨post', _, hevents'⟩
  · cases hlast
  · rw [afterEvents_snoc, Event.apply, resolvePending_getElem?] at hrow
    obtain ⟨old, hold, hnew⟩ := Option.map_eq_some_iff.mp hrow
    have hfact : row.facts = old.facts := by
      rw [← hnew]
      split
      · exact facts_decided _ _ _
      · rfl
    obtain ⟨hitem', horder, hat, hkind⟩ := fields_of_facts hfact
    rw [hitem'] at hitem
    rw [horder] at hoffer
    rw [hat] at hv
    have hbefore := h i old hold (hkind.symm.trans hfull) pre s post' o hevents' ho hi hitem hoffer v hv
      hwindow
    refine ⟨hbefore.1, ?_⟩
    rw [← hnew]
    split
    · refine decided_not_trade hv ?_
      obtain ⟨hvalid, huntil, hwhole⟩ := parsed_stamp hlawful hspells
        (vanish_stamped hblank events old (List.mem_of_getElem? hold)) hv
      have hs : s ∈ sweepsOf events := hevents' ▸ mem_sweepsOf
      refine relisted_of_evidence hi (htraced.evidence pre s post' o hevents' ho) hitem hoffer ?_ ?_
      · rw [hlawful.lt_iff hvalid (hspells s hs).1, hwhole]
        exact hbefore.1
      · rw [hlawful.order _ _ (hspells s hs).1 huntil]
        have hmono := wholeSeconds_mono hwindow
        rw [wholeSeconds_idem] at hmono
        exact hmono
    · exact hbefore.2

theorem Kept.sweep (h : Kept clock cfg db events) {s : SweepInput}
    (hlater : RepeatsLater clock cfg (sweepsOf events) (afterEvents clock cfg db events) s) :
    Kept clock cfg db (events ++ [.sweep s]) := by
  intro i row hrow hfull pre s' post o hevents ho hi hitem hoffer v hv hwindow
  obtain ⟨gap, status, hvanished, _⟩ := applySweep_vanished clock (afterEvents clock cfg db events) s
  rw [afterEvents_snoc, Event.apply, hvanished] at hrow
  rcases lt_or_ge i (vanishCount clock cfg db events) with hold | hnew
  · rw [List.getElem?_append_left hold] at hrow
    rcases split_snoc hevents with ⟨_, hpre, hlast⟩ | ⟨post', _, hevents'⟩
    · cases hlast
      subst hpre
      exact hlater.vanished o ho row (List.mem_of_getElem? hrow) hfull hitem hoffer v hv hwindow
    · exact h i row hrow hfull pre s' post' o hevents' ho hi hitem hoffer v hv hwindow
  · rw [List.getElem?_append_right hnew] at hrow
    rcases split_snoc hevents with ⟨_, hpre, hlast⟩ | ⟨post', _, hevents'⟩
    · cases hlast
      subst hpre
      obtain ⟨hlive, hgone⟩ := mem_vanishRows_missing _ (List.mem_of_getElem? hrow) hfull
      exact absurd hoffer (hlater.missing o ho row.order hlive hgone)
    · have hmono := @vanishCount_mono clock cfg db (pre ++ [.sweep s']) post'
      rw [List.append_assoc, List.singleton_append, ← hevents'] at hmono
      exact absurd (lt_of_lt_of_le hi hmono) (not_lt.mpr hnew)

/-- The run lemma. -/
theorem Kept.run (hblank : Blank db) (hlawful : clock.Lawful valid) (events : List Event)
    (hspells : Spells cfg events valid) (hlater : RepeatsLaterThroughout clock cfg db events) :
    Kept clock cfg db events := by
  induction events using List.reverseRecOn with
  | nil =>
      intro i row hrow
      rw [afterEvents, List.foldl_nil, hblank.vanished] at hrow
      cases hrow
  | append_singleton events e ih =>
      have hbefore := ih hspells.init hlater.init
      cases e with
      | sweep s => exact hbefore.sweep (hlater events s [] rfl)
      | resolve now =>
          exact hbefore.resolve (Traced.run hblank events hlater.init.own) hblank hlawful hspells.init now

end

/-- In every history whose sweeps repeat an offer only in a later second and before the vanish has
become a trade, a repeated offer never is a trade. -/
theorem relisted_never_trade (clock : Clock) (cfg : StatsConfig) (valid : Int → Prop) (db : Tables)
    (events : List Event) (hlawful : clock.Lawful valid) (hblank : Blank db)
    (hspells : Spells cfg events valid) (hlater : RepeatsLaterThroughout clock cfg db events) :
    NeverTrade clock cfg db events := by
  intro i row hrow hfull pre s pre' s' o hrepeats
  obtain ⟨⟨post, hevents⟩, hlow, hhigh⟩ := hrepeats.recorded
  obtain ⟨⟨post', hevents'⟩, ho⟩ := hrepeats.new
  have hs : s ∈ sweepsOf events := hevents ▸ mem_sweepsOf
  have hat : row.vanishedAt = clock.ts s.sweptAt := by
    rw [hevents] at hrow
    exact (vanish_recorded hlow hhigh hrow).1
  have hreads := hlawful.reads s.sweptAt (hspells s hs).1
  rw [Clock.Reads, ← hat] at hreads
  have hi := lt_of_lt_of_le hhigh (vanishCount_le_of_length hevents hevents' hrepeats.later)
  exact (Kept.run hblank hlawful events hspells hlater i row hrow hfull pre' s' post' o hevents' ho hi
    hrepeats.item hrepeats.offer _ hreads hrepeats.window).2

/-! ### A listing replaced between two sweeps -/

def offered (id : String) : V2Order :=
  ⟨id, "sell", 20, 1, some 0, none, none, none, none, true, "item1", ⟨"u1", "u1", "ingame"⟩⟩

def sweepAt (minute : Int) (ids : List String) : Event :=
  .sweep ⟨"item1", "hot", ids.map offered, minutes minute, 300, fun g e => decide (3 * e < g)⟩

def morningClock : Clock := .ofSeconds
  [(2700, "1970-01-01T00:45:00Z"), (3000, "1970-01-01T00:50:00Z"), (3300, "1970-01-01T00:55:00Z"),
    (3600, "1970-01-01T01:00:00Z"), (3900, "1970-01-01T01:05:00Z"), (4200, "1970-01-01T01:10:00Z"),
    (4500, "1970-01-01T01:15:00Z"), (4800, "1970-01-01T01:20:00Z"), (5100, "1970-01-01T01:25:00Z"),
    (10800, "1970-01-01T03:00:00Z"), (11100, "1970-01-01T03:05:00Z"), (11400, "1970-01-01T03:10:00Z")]

/-- The instants that the samples spell. -/
def Morning (t : Int) : Prop := t ∈ [45, 50, 55, 60, 65, 70, 75, 80, 85, 180, 185, 190].map minutes

theorem morningClock_lawful : morningClock.Lawful Morning where
  reads := by
    unfold Morning Clock.Reads
    decide +kernel
  order := by
    have h : ∀ t, Morning t → ∀ t', Morning t' →
        (morningClock.ts t ≤ morningClock.ts t' ↔ wholeSeconds t ≤ wholeSeconds t') := by
      unfold Morning
      decide +kernel
    exact fun t t' ht ht' => h t ht t' ht'

def unsweptTables : Tables where
  lastSeenOrders := .empty
  vanishedOrders := []
  sweepSummary := []
  sweepState := ⟨[⟨"item1", "slug1", true, none, none, none, 0, 0⟩], by decide⟩

theorem unsweptTables_blank : Blank unsweptTables := ⟨rfl, rfl⟩

/-- The user takes `s1` down and lists `s2` before the next sweep: it sees both at once, and the
vanish of `s1` becomes a trade. -/
def replacedAtOnce : List Event := [sweepAt 60 ["s1"], sweepAt 65 ["s2"], .resolve (minutes 185)]

theorem replaced_at_once_is_trade : ¬ NeverTrade morningClock {} unsweptTables replacedAtOnce := by
  intro h
  refine h 0 ⟨"item1", (offered "s1").toSeen "1970-01-01T01:00:00Z", 1, "1970-01-01T01:05:00Z", some 300,
    "full", "trade"⟩ (by decide +kernel) rfl [sweepAt 60 ["s1"]]
    ⟨"item1", "hot", [offered "s2"], minutes 65, 300, fun g e => decide (3 * e < g)⟩
    [sweepAt 60 ["s1"]]
    ⟨"item1", "hot", [offered "s2"], minutes 65, 300, fun g e => decide (3 * e < g)⟩
    (offered "s2") ⟨⟨⟨_, rfl⟩, ?_, ?_⟩, ⟨⟨_, rfl⟩, ?_⟩, le_refl _, ?_, rfl, ?_⟩ rfl
  · decide +kernel
  · decide +kernel
  · decide +kernel
  · decide +kernel
  · decide +kernel

/-- The same with a sweep in between. -/
def replacedLater : List Event :=
  [sweepAt 60 ["s1"], sweepAt 65 [], sweepAt 70 ["s2"], .resolve (minutes 185)]

theorem relisted_never_trade_replaced_later : NeverTrade morningClock {} unsweptTables replacedLater :=
  relisted_never_trade morningClock {} Morning unsweptTables replacedLater morningClock_lawful
    unsweptTables_blank (by unfold Spells Morning; decide +kernel) (by decide +kernel)

end Quantframe.Collector
