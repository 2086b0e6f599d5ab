import Mathlib.Data.List.Nodup
import Quantframe.Collector.Store

/-!
# Resolution of vanishes

A pending full vanish is decided once its relist window has closed: bulk, relist or trade.
-/

namespace Quantframe.Collector

open Lib

def hours (n : Int) : Int := n * 3600000000000

def minutes (n : Int) : Int := n * 60000000000

def days (n : Int) : Int := n * 86400000000000

/-- Durations are in nanoseconds. -/
structure StatsConfig where
  relistWindow : Int := hours 2
  bulkPullThreshold : Int := 3
  bulkWindow : Int := minutes 30
  gapFactor : Rat := 3
  window : Int := days 7
  avgWindow : Int := hours 48
  warmDays : Int := 7
  warmMinTrades : Nat := 10
  sideMinTrades : Nat := 3

inductive Resolution where
  | trade
  | relist
  | bulk
  deriving DecidableEq, Repr

def Resolution.asStr : Resolution → String
  | .trade => "trade"
  | .relist => "relist"
  | .bulk => "bulk"

/-- Decides a pending full vanish once its relist window has closed. -/
def resolveVanish (userVanishesInBulkWindow : Int) (userRelisted : Bool) (cfg : StatsConfig) :
    Resolution :=
  if userVanishesInBulkWindow ≥ cfg.bulkPullThreshold then .bulk
  else if userRelisted then .relist
  else .trade

theorem resolution_ne_pending (r : Resolution) : r.asStr ≠ "pending" := by
  cases r <;> decide

theorem resolveVanish_relisted (bulk : Int) (cfg : StatsConfig) :
    (resolveVanish bulk true cfg).asStr ≠ "trade" := by
  rw [resolveVanish]
  split
  · decide
  · decide

/-- The same user on the same sub-type and side. -/
def SeenOrder.SameOffer (o o' : SeenOrder) : Prop :=
  o.userId = o'.userId ∧ o.subType = o'.subType ∧ o.side = o'.side

instance (o o' : SeenOrder) : Decidable (o.SameOffer o') :=
  inferInstanceAs (Decidable (_ ∧ _ ∧ _))

theorem SeenOrder.SameOffer.symm {o o' : SeenOrder} (h : o.SameOffer o') : o'.SameOffer o :=
  ⟨h.1.symm, h.2.1.symm, h.2.2.symm⟩

theorem SeenOrder.SameOffer.trans {o o' o'' : SeenOrder} (h : o.SameOffer o') (h' : o'.SameOffer o'') :
    o.SameOffer o'' :=
  ⟨h.1.trans h'.1, h.2.1.trans h'.2.1, h.2.2.trans h'.2.2⟩

section Queries

variable (clock : Clock) (cfg : StatsConfig)

/-- The full vanishes of a user around a vanish, over all items. -/
def bulkCount (rows : List VanishedRow) (userId : String) (vanished : Int) : Nat :=
  let half := cfg.bulkWindow.tdiv 2
  rows.countP fun r => r.order.userId = userId ∧ r.kind = "full" ∧
    clock.ts (vanished - half) ≤ r.vanishedAt ∧ r.vanishedAt ≤ clock.ts (vanished + half)

/-- An order of the same offer first seen after the vanish and within the window. -/
def seenAgain (row : VanishedRow) (vanished : Int) (itemId : String) (o : SeenOrder) : Bool :=
  decide (itemId = row.itemId ∧ o.SameOffer row.order ∧ clock.ts vanished < o.firstSeen ∧
    o.firstSeen ≤ clock.ts (vanished + cfg.relistWindow))

/-- Vanish `i` was relisted, by an order that is still listed or has vanished since. -/
def relisted (db : Tables) (i : Nat) (row : VanishedRow) (vanished : Int) : Bool :=
  (db.lastSeenOrders.rows.any fun r => seenAgain clock cfg row vanished r.itemId r.order) ||
    db.vanishedOrders.zipIdx.any fun (r, j) =>
      decide (j ≠ i) && seenAgain clock cfg row vanished r.itemId r.order

/-- What becomes of a pending row; one whose time cannot be read stays. -/
def decided (db : Tables) (i : Nat) (row : VanishedRow) : VanishedRow :=
  match clock.parseTs row.vanishedAt with
  | none => row
  | some vanished =>
      let bulk := bulkCount clock cfg db.vanishedOrders row.order.userId vanished
      { row with status := (resolveVanish bulk (relisted clock cfg db i row vanished) cfg).asStr }

def resolveRow (db : Tables) (i : Nat) : Tables :=
  { db with vanishedOrders := db.vanishedOrders.modify i (decided clock cfg db i) }

/-- The row is pending and its window has closed. -/
def Due (now : Int) (row : VanishedRow) : Prop :=
  row.status = "pending" ∧ row.vanishedAt ≤ clock.ts (now - cfg.relistWindow)

instance (now : Int) (row : VanishedRow) : Decidable (Due clock cfg now row) :=
  inferInstanceAs (Decidable (_ ∧ _))

def dueRows (db : Tables) (now : Int) : List Nat :=
  (db.vanishedOrders.zipIdx.filter fun (r, _) => Due clock cfg now r).map Prod.snd

def resolvePending (db : Tables) (now : Int) : Tables :=
  (dueRows clock cfg db now).foldl (resolveRow clock cfg) db

end Queries

/-! ### What a resolution does to one row -/

section Rows

variable {clock : Clock} {cfg : StatsConfig}

/-- A row without the one column that a resolution writes. -/
def VanishedRow.facts (row : VanishedRow) : VanishedRow := { row with status := "" }

theorem eq_of_facts {row row' : VanishedRow} (h : row'.facts = row.facts) :
    row' = { row with status := row'.status } := by
  obtain ⟨_, _, _, _, _, _, _⟩ := row
  obtain ⟨_, _, _, _, _, _, _⟩ := row'
  simp only [VanishedRow.facts, VanishedRow.mk.injEq] at h ⊢
  exact ⟨h.1, h.2.1, h.2.2.1, h.2.2.2.1, h.2.2.2.2.1, h.2.2.2.2.2.1, trivial⟩

theorem fields_of_facts {row row' : VanishedRow} (h : row'.facts = row.facts) :
    row'.itemId = row.itemId ∧ row'.order = row.order ∧ row'.vanishedAt = row.vanishedAt ∧
      row'.kind = row.kind := by
  rw [eq_of_facts h]
  exact ⟨rfl, rfl, rfl, rfl⟩

/-- The tables agree on all that a resolution reads. -/
structure SameFacts (db db' : Tables) : Prop where
  seen : db'.lastSeenOrders = db.lastSeenOrders
  vanished : db'.vanishedOrders.map VanishedRow.facts = db.vanishedOrders.map VanishedRow.facts

theorem SameFacts.refl (db : Tables) : SameFacts db db := ⟨rfl, rfl⟩

theorem SameFacts.trans {db db' db'' : Tables} (h : SameFacts db db') (h' : SameFacts db' db'') :
    SameFacts db db'' :=
  ⟨h'.seen.trans h.seen, h'.vanished.trans h.vanished⟩

theorem SameFacts.symm {db db' : Tables} (h : SameFacts db db') : SameFacts db' db :=
  ⟨h.seen.symm, h.vanished.symm⟩

theorem SameFacts.getElem? {db db' : Tables} (h : SameFacts db db') {j : Nat} {row : VanishedRow}
    (hrow : db'.vanishedOrders[j]? = some row) :
    ∃ row', db.vanishedOrders[j]? = some row' ∧ row.facts = row'.facts := by
  have hsame := congrArg (fun l : List VanishedRow => l[j]?) h.vanished
  simp only [List.getElem?_map, hrow, Option.map_some] at hsame
  obtain ⟨row', hrow', hfact⟩ := Option.map_eq_some_iff.mp hsame.symm
  exact ⟨row', hrow', hfact.symm⟩

theorem SameFacts.mem {db db' : Tables} (h : SameFacts db db') {row : VanishedRow}
    (hrow : row ∈ db'.vanishedOrders) : ∃ row' ∈ db.vanishedOrders, row.facts = row'.facts := by
  obtain ⟨j, hj⟩ := List.mem_iff_getElem?.mp hrow
  obtain ⟨row', hrow', hfact⟩ := h.getElem? hj
  exact ⟨row', List.mem_of_getElem? hrow', hfact⟩

theorem facts_decided (db : Tables) (i : Nat) (row : VanishedRow) :
    (decided clock cfg db i row).facts = row.facts := by
  rw [decided]
  split <;> rfl

theorem facts_modify (rows : List VanishedRow) (i : Nat) (f : VanishedRow → VanishedRow)
    (hf : ∀ row, (f row).facts = row.facts) :
    (rows.modify i f).map VanishedRow.facts = rows.map VanishedRow.facts := by
  refine List.ext_getElem? fun j => ?_
  rw [List.getElem?_map, List.getElem?_map, List.getElem?_modify]
  split
  · cases rows[j]? with
    | none => rfl
    | some row => exact congrArg some (hf row)
  · simp

theorem sameFacts_resolveRow (db : Tables) (i : Nat) :
    SameFacts db (resolveRow clock cfg db i) :=
  ⟨rfl, facts_modify _ _ _ (facts_decided db i)⟩

/-- A count over facts. -/
theorem bulkCount_facts (rows : List VanishedRow) (userId : String) (vanished : Int) :
    bulkCount clock cfg rows userId vanished =
      bulkCount clock cfg (rows.map VanishedRow.facts) userId vanished := by
  rw [bulkCount, bulkCount, List.countP_map]
  rfl

theorem relisted_facts (db : Tables) (i : Nat) (row : VanishedRow) (vanished : Int) :
    relisted clock cfg db i row vanished =
      relisted clock cfg { db with vanishedOrders := db.vanishedOrders.map VanishedRow.facts } i row
        vanished := by
  rw [relisted, relisted, List.zipIdx_map, List.any_map]
  rfl

theorem SameFacts.decided {db db' : Tables} (h : SameFacts db db') (i : Nat) (row : VanishedRow) :
    Collector.decided clock cfg db' i row = Collector.decided clock cfg db i row := by
  rw [Collector.decided, Collector.decided]
  cases clock.parseTs row.vanishedAt with
  | none => rfl
  | some vanished =>
      have hbulk : bulkCount clock cfg db'.vanishedOrders row.order.userId vanished =
          bulkCount clock cfg db.vanishedOrders row.order.userId vanished := by
        rw [bulkCount_facts, h.vanished, ← bulkCount_facts]
      have hrelisted : relisted clock cfg db' i row vanished = relisted clock cfg db i row vanished := by
        rw [relisted_facts, h.vanished, relisted_facts db]
        simp only [relisted, h.seen]
      simp only [hbulk, hrelisted]

/-- The fold over the rows of a run: no decision reads what an earlier one wrote. -/
theorem resolveRows_getElem? {db₀ : Tables} (ids : List Nat) (hids : ids.Nodup) :
    ∀ db : Tables, SameFacts db₀ db →
      (∀ i ∈ ids, db.vanishedOrders[i]? = db₀.vanishedOrders[i]?) → ∀ j : Nat,
      (ids.foldl (resolveRow clock cfg) db).vanishedOrders[j]? =
        if j ∈ ids then (db₀.vanishedOrders[j]?).map (decided clock cfg db₀ j)
        else db.vanishedOrders[j]? := by
  induction ids with
  | nil => exact fun db _ _ j => rfl
  | cons i ids ih =>
      intro db hfacts hsame j
      rw [List.nodup_cons] at hids
      rw [List.foldl_cons, ih hids.2 _ (hfacts.trans (sameFacts_resolveRow db i))]
      · by_cases hj : j ∈ ids
        · rw [if_pos hj, if_pos (List.mem_cons_of_mem _ hj)]
        · rw [if_neg hj, resolveRow]
          by_cases hi : i = j
          · subst hi
            rw [List.getElem?_modify_eq, if_pos List.mem_cons_self, hsame i List.mem_cons_self]
            cases db₀.vanishedOrders[i]? with
            | none => rfl
            | some row => exact congrArg some (hfacts.decided i row)
          · rw [List.getElem?_modify_ne _ _ hi, if_neg (by simp [Ne.symm hi, hj])]
      · intro k hk
        have hne : i ≠ k := fun h => hids.1 (h ▸ hk)
        rw [resolveRow, List.getElem?_modify_ne _ _ hne, hsame k (List.mem_cons_of_mem _ hk)]

theorem mem_dueRows {db : Tables} {now : Int} {j : Nat} :
    j ∈ dueRows clock cfg db now ↔
      ∃ row, db.vanishedOrders[j]? = some row ∧ Due clock cfg now row := by
  simp only [dueRows, List.mem_map, List.mem_filter, decide_eq_true_eq]
  constructor
  · rintro ⟨⟨row, j⟩, ⟨hrow, hdue⟩, rfl⟩
    exact ⟨row, List.mem_zipIdx_iff_getElem?.mp hrow, hdue⟩
  · rintro ⟨row, hrow, hdue⟩
    exact ⟨(row, j), ⟨List.mem_zipIdx_iff_getElem?.mpr hrow, hdue⟩, rfl⟩

theorem dueRows_nodup (db : Tables) (now : Int) : (dueRows clock cfg db now).Nodup := by
  have hall : (db.vanishedOrders.zipIdx.map Prod.snd).Nodup := by
    rw [List.zipIdx_map_snd]
    exact List.nodup_range'
  exact (List.filter_sublist.map Prod.snd).nodup hall

/-- A run decides each due row on the tables it began with, and touches no other row. -/
theorem resolvePending_getElem? (db : Tables) (now : Int) (j : Nat) :
    (resolvePending clock cfg db now).vanishedOrders[j]? =
      (db.vanishedOrders[j]?).map fun row =>
        if Due clock cfg now row then decided clock cfg db j row else row := by
  rw [resolvePending, resolveRows_getElem? _ (dueRows_nodup db now) db (.refl db) fun _ _ => rfl]
  cases hrow : db.vanishedOrders[j]? with
  | none => simp
  | some row =>
      by_cases hdue : Due clock cfg now row
      · rw [if_pos (mem_dueRows.mpr ⟨row, hrow, hdue⟩), Option.map_some, Option.map_some, if_pos hdue]
      · rw [if_neg, Option.map_some, if_neg hdue]
        rintro hj
        obtain ⟨row', hrow', hdue'⟩ := mem_dueRows.mp hj
        cases hrow.symm.trans hrow'
        exact hdue hdue'

/-- A run writes to `vanished_orders` only, and adds no row. -/
theorem resolvePending_eq (db : Tables) (now : Int) :
    ∃ rows, resolvePending clock cfg db now = { db with vanishedOrders := rows } ∧
      rows.length = db.vanishedOrders.length := by
  rw [resolvePending]
  generalize dueRows clock cfg db now = ids
  induction ids generalizing db with
  | nil => exact ⟨_, rfl, rfl⟩
  | cons i ids ih =>
      obtain ⟨rows, hrows, hlength⟩ := ih (resolveRow clock cfg db i)
      refine ⟨rows, hrows, hlength.trans ?_⟩
      rw [resolveRow]
      exact List.length_modify ..

theorem resolvePending_sweepState (db : Tables) (now : Int) :
    (resolvePending clock cfg db now).sweepState = db.sweepState := by
  obtain ⟨rows, hrows, _⟩ := @resolvePending_eq clock cfg db now
  rw [hrows]

theorem resolvePending_sweepSummary (db : Tables) (now : Int) :
    (resolvePending clock cfg db now).sweepSummary = db.sweepSummary := by
  obtain ⟨rows, hrows, _⟩ := @resolvePending_eq clock cfg db now
  rw [hrows]

theorem resolvePending_length (db : Tables) (now : Int) :
    (resolvePending clock cfg db now).vanishedOrders.length = db.vanishedOrders.length := by
  obtain ⟨rows, hrows, hlength⟩ := @resolvePending_eq clock cfg db now
  rw [hrows]
  exact hlength

/-- A sweep reads none of the statuses. -/
theorem SameFacts.applySweep {db db' : Tables} (h : SameFacts db db')
    (hstate : db'.sweepState = db.sweepState) (s : SweepInput) :
    SameFacts (applySweep clock db s).1 (applySweep clock db' s).1 ∧
      (applySweep clock db' s).1.sweepState = (applySweep clock db s).1.sweepState := by
  obtain ⟨seen, vanished, summary, state⟩ := db
  obtain ⟨seen', vanished', summary', state'⟩ := db'
  obtain ⟨hseen, hvanished⟩ := h
  dsimp only at hseen hvanished hstate
  subst hseen hstate
  refine ⟨⟨rfl, ?_⟩, rfl⟩
  simp only [Collector.applySweep, List.map_append, hvanished]
  rfl

end Rows

end Quantframe.Collector
