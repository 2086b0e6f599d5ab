import Quantframe.Trader.Prefetch

/-!
# Prefetching changes nothing

The prefetch, when there is one, is that of the next entry the loop will turn to. So the loop handles the same
entries with the same books as the one that fetches each book just before it processes the entry.
-/

namespace Quantframe.Trader

open Lib Market
open Trades (Error)

/-! ### Fetches and their events -/

/-- The fetch `q` as it was started, or with what it gave. -/
inductive Prefetch.Came (q : Prefetch) : Prefetch → Prop
  | pending : Came q q
  | finished {r : Except Error LiveOrders} (h : q.fut = some r) : Came q ⟨q.index, none, some r⟩

namespace Prefetch

variable {p q : Prefetch} {ready : Nat → Bool} {k : Nat} {r r' : Except Error LiveOrders}

theorem Came.index_eq (h : Came q p) : p.index = q.index := by
  cases h with
  | pending => rfl
  | finished _ => rfl

theorem Came.pollProgress (h : Came q p) : Came q (p.pollProgress ready) := by
  cases h with
  | finished hr => exact .finished hr
  | pending =>
      rcases p with ⟨index, _ | r, out⟩
      · exact .pending
      · simp only [Prefetch.pollProgress]
        split
        · exact .finished rfl
        · exact .pending

theorem rel_pollProgress {next prefetch : Option Prefetch} (h : Option.Rel Came next prefetch) :
    Option.Rel Came next (prefetch.map (pollProgress ready)) := by
  cases h with
  | none => exact .none
  | some hcame => exact .some hcame.pollProgress

theorem Came.out_pollProgress_all (h : Came (.start k r) p) : (p.pollProgress fun _ => true).out = some r := by
  cases h with
  | pending => rfl
  | finished hr =>
      cases hr
      rfl

theorem Came.out_eq (h : Came (.start k r) p) (hout : p.out = some r') : r' = r := by
  cases h with
  | pending => cases hout
  | finished hr =>
      cases hr
      cases hout
      rfl

/-- A fetch that gave something is not under way any more. -/
theorem Came.pending_eq_nil (h : Came (.start k r) p) (hout : p.out = some r') : p.pending = [] := by
  cases h with
  | pending => cases hout
  | finished _ => rfl

end Prefetch

theorem Prefetch.length_pending_le (p : Prefetch) : p.pending.length ≤ 1 := by
  rw [Prefetch.pending]
  split
  · exact Nat.le_refl 1
  · exact Nat.zero_le 1

theorem outstanding_append (log events : List FetchEvent) :
    outstanding (log ++ events) = events.foldl FetchEvent.apply (outstanding log) := List.foldl_append

@[simp] theorem startedFetches_append (log events : List FetchEvent) :
    startedFetches (log ++ events) = startedFetches log ++ startedFetches events := List.filterMap_append

/-- A poll of one of the fetches under way. -/
theorem outstanding_pollEvents {log : List FetchEvent} (before after : List Nat) (p : Prefetch)
    (ready : Nat → Bool) (h : (outstanding log).Perm (before ++ p.pending ++ after)) :
    (outstanding (log ++ p.pollEvents ready)).Perm (before ++ (p.pollProgress ready).pending ++ after) := by
  rw [outstanding_append]
  rcases p with ⟨index, _ | r, out⟩
  · exact h
  · cases hready : ready index with
    | false => simpa [Prefetch.pollEvents, Prefetch.pollProgress, hready] using h
    | true =>
        have herase : ((before ++ [index] ++ after).erase index).Perm (before ++ after) :=
          ((List.perm_append_comm.append_right after).erase index).trans
            (by simp only [List.cons_append, List.nil_append, List.erase_cons_head]; exact .refl _)
        have hperm := (h.erase index).trans herase
        simpa [Prefetch.pollEvents, Prefetch.pollProgress, Prefetch.pending, FetchEvent.apply, hready] using hperm

theorem outstanding_dropEvents {log : List FetchEvent} (p : Prefetch)
    (h : (outstanding log).Perm p.pending) : outstanding (log ++ p.dropEvents) = [] := by
  rw [outstanding_append]
  rcases p with ⟨index, _ | r, out⟩
  · exact h.eq_nil
  · have hone : outstanding log = [index] := List.perm_singleton.mp h
    simp [Prefetch.dropEvents, FetchEvent.apply, hone]

@[simp] theorem startedFetches_pollEvents (p : Prefetch) (ready : Nat → Bool) :
    startedFetches (p.pollEvents ready) = [] := by
  rw [Prefetch.pollEvents]
  split
  · rfl
  · rfl

@[simp] theorem startedFetches_dropEvents (p : Prefetch) : startedFetches p.dropEvents = [] := by
  rw [Prefetch.dropEvents]
  split
  · rfl
  · rfl

/-! ### What the loop keeps -/

namespace Workflows

variable {W R : Type} (c : Workflows W R)

/-- The positions from `k` on whose entries the cache can resolve. -/
def resolvable : Nat → List ItemEntry → List Nat
  | _, [] => []
  | k, entry :: rest =>
      if (c.tradable entry.wfmUrl).isSome then k :: resolvable (k + 1) rest else resolvable (k + 1) rest

end Workflows

namespace ItemLoop

variable {W R : Type}

/-- The position the loop comes to next. -/
def ahead (s : ItemLoop W R) : Nat := if s.turn.isSome then s.index + 1 else s.index

/-- The fetch the entry in process waits for. -/
def current? (s : ItemLoop W R) : Option Prefetch :=
  match s.turn with
  | some ⟨_, _, _, .finish current⟩ => some current
  | _ => none

/-- The requests under way. -/
def pending (s : ItemLoop W R) : List Nat :=
  (s.current?.map Prefetch.pending).getD [] ++ (s.prefetch.map Prefetch.pending).getD []

/-- What the loop keeps while it runs. -/
structure Running (c : Workflows W R) (entries : List ItemEntry) (s : ItemLoop W R) : Prop where
  ended : s.ended = none
  /-- Nothing was started yet, or the prefetch is that of the next entry the cache can resolve. -/
  prefetch : (s.turn = none ∧ s.log = [] ∧ s.prefetch = none) ∨
    Option.Rel Prefetch.Came (c.startNext s.ahead s.rest) s.prefetch
  started : ∃ passed, c.resolvable 0 entries = passed ++ c.resolvable s.ahead s.rest ∧
    startedFetches s.log = passed ++ s.prefetch.toList.map Prefetch.index
  outstanding : (outstanding s.log).Perm s.pending
  current : ∀ {entry itemInfo reached p}, s.turn = some ⟨entry, itemInfo, reached, .finish p⟩ →
    (Prefetch.start s.index (c.fetch s.index entry.wfmUrl itemInfo.wfmUrl)).Came p

/-- What holds when it has ended. -/
structure Ended (c : Workflows W R) (entries : List ItemEntry) (s : ItemLoop W R) : Prop where
  ended : s.ended.isSome = true
  turn : s.turn = none
  started : startedFetches s.log <+: c.resolvable 0 entries
  outstanding : outstanding s.log = []

end ItemLoop

namespace Workflows

variable {W R : Type} {c : Workflows W R} {entries rest : List ItemEntry} {k : Nat} {entry : ItemEntry}
  {itemInfo : CacheTradableItem} {prefetch : Option Prefetch} {s : ItemLoop W R} {result : Except Error Bool}

theorem startNext_resolved (h : c.tradable entry.wfmUrl = some itemInfo) :
    c.startNext k (entry :: rest) = some (.start k (c.fetch k entry.wfmUrl itemInfo.wfmUrl)) := by
  rw [startNext, h]

theorem startNext_skipped (h : c.tradable entry.wfmUrl = none) :
    c.startNext k (entry :: rest) = c.startNext (k + 1) rest := by rw [startNext, h]

theorem resolvable_resolved (h : c.tradable entry.wfmUrl = some itemInfo) :
    c.resolvable k (entry :: rest) = k :: c.resolvable (k + 1) rest := by simp [resolvable, h]

theorem resolvable_skipped (h : c.tradable entry.wfmUrl = none) :
    c.resolvable k (entry :: rest) = c.resolvable (k + 1) rest := by simp [resolvable, h]

/-- The skip of the prefetch and that of the loop agree. -/
theorem startNext_index (k : Nat) (rest : List ItemEntry) :
    (c.startNext k rest).map Prefetch.index = (c.resolvable k rest).head? := by
  induction rest generalizing k with
  | nil => rfl
  | cons entry rest ih =>
      cases h : c.tradable entry.wfmUrl with
      | none => rw [startNext_skipped h, resolvable_skipped h, ih]
      | some itemInfo =>
          rw [startNext_resolved h, resolvable_resolved h]
          rfl

theorem startNext_pending (k : Nat) (rest : List ItemEntry) :
    ((c.startNext k rest).map Prefetch.pending).getD [] = (c.startNext k rest).toList.map Prefetch.index := by
  induction rest generalizing k with
  | nil => rfl
  | cons entry rest ih =>
      cases h : c.tradable entry.wfmUrl with
      | none => rw [startNext_skipped h, ih]
      | some itemInfo =>
          rw [startNext_resolved h]
          rfl

theorem came_nil (h : Option.Rel Prefetch.Came (c.startNext k []) prefetch) : prefetch = none := by
  cases h
  rfl

theorem came_startNext (k : Nat) (rest : List ItemEntry) :
    Option.Rel Prefetch.Came (c.startNext k rest) (c.startNext k rest) := by
  cases c.startNext k rest with
  | none => exact .none
  | some q => exact .some .pending

theorem prefix_of_came (h : Option.Rel Prefetch.Came (c.startNext k rest) prefetch) :
    prefetch.toList.map Prefetch.index <+: c.resolvable k rest := by
  have hindex := startNext_index (c := c) k rest
  cases hnext : c.startNext k rest with
  | none =>
      rw [hnext] at h
      cases h
      exact List.nil_prefix
  | some q =>
      rw [hnext] at h hindex
      cases h with
      | some hcame =>
          obtain ⟨later, hlater⟩ := List.head?_eq_some_iff.mp hindex.symm
          exact ⟨later, by rw [hlater]; simp [hcame.index_eq]⟩

end Workflows

namespace ItemLoop

variable {W R : Type} {c : Workflows W R} {entries : List ItemEntry} {s : ItemLoop W R}
  {result : Except Error Bool}

namespace Running

theorem started_prefix (h : s.Running c entries) : startedFetches s.log <+: c.resolvable 0 entries := by
  obtain ⟨passed, hresolvable, hstarted⟩ := h.started
  rw [hresolvable, hstarted]
  refine (List.prefix_append_right_inj passed).mpr ?_
  rcases h.prefetch with ⟨-, -, hnone⟩ | hcame
  · rw [hnone]
    exact List.nil_prefix
  · exact Workflows.prefix_of_came hcame

theorem leave (h : s.Running c entries) (hcurrent : (s.current?.map Prefetch.pending).getD [] = []) :
    (s.leave result).Ended c entries := by
  have hpending := h.outstanding
  rw [ItemLoop.pending, hcurrent, List.nil_append] at hpending
  refine ⟨rfl, rfl, ?_, ?_⟩
  · have hnone : startedFetches ((s.prefetch.map Prefetch.dropEvents).getD []) = [] := by
      cases s.prefetch with
      | none => rfl
      | some p => exact startedFetches_dropEvents p
    rw [ItemLoop.leave, startedFetches_append, hnone, List.append_nil]
    exact h.started_prefix
  · rw [ItemLoop.leave]
    cases hprefetch : s.prefetch with
    | none =>
        rw [hprefetch] at hpending
        simpa using hpending.eq_nil
    | some p =>
        rw [hprefetch] at hpending
        exact outstanding_dropEvents p hpending

theorem pollPrefetch (h : s.Running c entries) (ready : Nat → Bool) :
    (s.pollPrefetch ready).Running c entries := by
  rcases s with ⟨index, rest, _ | p, turn, ended, world, handled, log⟩
  · simpa [ItemLoop.pollPrefetch] using h
  · obtain ⟨hended, hprefetch, hstarted, houtstanding, hcurrent⟩ := h
    refine ⟨hended, .inr ?_, ?_, ?_, hcurrent⟩
    · rcases hprefetch with ⟨-, -, hnone⟩ | hcame
      · cases hnone
      · exact Prefetch.rel_pollProgress hcame
    · obtain ⟨passed, hresolvable, hlog⟩ := hstarted
      refine ⟨passed, hresolvable, ?_⟩
      have hindex : (p.pollProgress ready).index = p.index := by
        rcases p with ⟨index, _ | r, out⟩
        · rfl
        · simp only [Prefetch.pollProgress]
          split
          · rfl
          · rfl
      simpa [ItemLoop.pollPrefetch, hindex] using hlog
    · have hpolled := outstanding_pollEvents _ [] p ready (by rw [List.append_nil]; exact houtstanding)
      rw [List.append_nil] at hpolled
      exact hpolled

theorem pollCurrent (h : s.Running c entries) (ready : Nat → Bool) :
    (s.pollCurrent ready).Running c entries := by
  rcases s with ⟨index, rest, prefetch, _ | ⟨entry, itemInfo, reached, current | book⟩, ended, world, handled, log⟩
  · exact h
  · obtain ⟨hended, hprefetch, hstarted, houtstanding, hcurrent⟩ := h
    refine ⟨hended, ?_, ?_, ?_, ?_⟩
    · rcases hprefetch with ⟨hnone, -⟩ | hcame
      · cases hnone
      · exact .inr hcame
    · obtain ⟨passed, hresolvable, hlog⟩ := hstarted
      exact ⟨passed, hresolvable, by simpa [ItemLoop.pollCurrent] using hlog⟩
    · exact outstanding_pollEvents [] _ current ready houtstanding
    · rintro _ _ _ _ ⟨⟩
      exact (hcurrent rfl).pollProgress
  · exact h

/-- What `finish` takes is what the fetch gave, and it is under way no more. -/
theorem out_eq {entry : ItemEntry} {itemInfo : CacheTradableItem} {reached : R} {current : Prefetch}
    {r : Except Error LiveOrders} (h : s.Running c entries)
    (hturn : s.turn = some ⟨entry, itemInfo, reached, .finish current⟩) (hout : current.out = some r) :
    r = c.fetch s.index entry.wfmUrl itemInfo.wfmUrl ∧ current.pending = [] :=
  ⟨(h.current hturn).out_eq hout, (h.current hturn).pending_eq_nil hout⟩

end Running

/-- The loop keeps its invariant: it runs, or it has ended. -/
def Orderly (c : Workflows W R) (entries : List ItemEntry) (s : ItemLoop W R) : Prop :=
  s.Running c entries ∨ s.Ended c entries

theorem Running.takeOut (h : s.Running c entries) : s.takeOut.Orderly c entries := by
  rcases hturn : s.turn with _ | ⟨entry, itemInfo, reached, current | book⟩
  · exact .inl (by simpa [ItemLoop.takeOut, hturn] using h)
  · rcases hout : current.out with _ | e | book
    · exact .inl (by simpa [ItemLoop.takeOut, hturn, hout] using h)
    · simp only [ItemLoop.takeOut, hturn, hout]
      exact .inr (h.leave (by simp [current?, hturn, (h.out_eq hturn hout).2]))
    · simp only [ItemLoop.takeOut, hturn, hout]
      refine .inl ⟨h.ended, ?_, ?_, ?_, nofun⟩
      · rcases h.prefetch with ⟨hnone, -⟩ | hcame
        · rw [hturn] at hnone
          cases hnone
        · exact .inr (by simpa [ahead, hturn] using hcame)
      · simpa [ahead, hturn] using h.started
      · simpa [ItemLoop.pending, current?, hturn, (h.out_eq hturn hout).2] using h.outstanding
  · exact .inl (by simpa [ItemLoop.takeOut, hturn] using h)

theorem Running.progressEntry (h : s.Running c entries) (done : Bool) :
    (c.progressEntry done s).Orderly c entries := by
  rcases hturn : s.turn with _ | ⟨entry, itemInfo, reached, current | book⟩
  · exact .inl (by simpa [Workflows.progressEntry, hturn] using h)
  · exact .inl (by simpa [Workflows.progressEntry, hturn] using h)
  · cases done with
    | false => exact .inl (by simpa [Workflows.progressEntry, hturn] using h)
    | true =>
        have hhandled : ({ s with
            world := (c.progress reached entry itemInfo book s.world).2
            handled := s.handled ++ [(s.index, book)] } : ItemLoop W R).Running c entries :=
          ⟨h.ended, h.prefetch, h.started, h.outstanding, h.current⟩
        rcases hresult : (c.progress reached entry itemInfo book s.world).1 with e | ⟨⟩
        · simp only [Workflows.progressEntry, hturn, hresult, if_true]
          exact .inr (hhandled.leave (by simp [current?, hturn]))
        · simp only [Workflows.progressEntry, hturn, hresult, if_true]
          refine .inl ⟨h.ended, ?_, ?_, ?_, nofun⟩
          · rcases h.prefetch with ⟨hnone, -⟩ | hcame
            · rw [hturn] at hnone
              cases hnone
            · exact .inr (by simpa [ahead, hturn] using hcame)
          · simpa [ahead, hturn] using h.started
          · simpa [ItemLoop.pending, current?, hturn] using h.outstanding

theorem Ended.progressEntry (h : s.Ended c entries) (done : Bool) : c.progressEntry done s = s := by
  simp [Workflows.progressEntry, h.turn]

theorem Running.poll (h : s.Running c entries) (ready : Nat → Bool) (done : Bool) :
    (c.poll ready done s).Orderly c entries := by
  rcases ((h.pollPrefetch ready).pollCurrent ready).takeOut with hrunning | hended
  · exact hrunning.progressEntry done
  · rw [Workflows.poll, hended.progressEntry]
    exact .inr hended

/-- The fetch of the entry that is reached: its own prefetch, or the first one. -/
theorem Running.current_spec {entry : ItemEntry} {rest : List ItemEntry} {itemInfo : CacheTradableItem}
    (h : s.Running c entries) (hturn : s.turn = none) (hrest : s.rest = entry :: rest)
    (htradable : c.tradable entry.wfmUrl = some itemInfo) :
    (Prefetch.start s.index (c.fetch s.index entry.wfmUrl itemInfo.wfmUrl)).Came
        (c.current s.index entry itemInfo s.prefetch).1 ∧
      (∃ passed, c.resolvable 0 entries = passed ++ s.index :: c.resolvable (s.index + 1) rest ∧
        startedFetches (s.log ++ (c.current s.index entry itemInfo s.prefetch).2) = passed ++ [s.index]) ∧
      (Trader.outstanding (s.log ++ (c.current s.index entry itemInfo s.prefetch).2)).Perm
        (c.current s.index entry itemInfo s.prefetch).1.pending ∧
      (Trader.outstanding s.log).length +
        (startedFetches (c.current s.index entry itemInfo s.prefetch).2).length ≤ 1 := by
  have hahead : s.ahead = s.index := by simp [ahead, hturn]
  obtain ⟨passed, hresolvable, hstarted⟩ := h.started
  rw [hahead, hrest, Workflows.resolvable_resolved htradable] at hresolvable
  have hprefetch := h.prefetch
  rw [hahead, hrest, Workflows.startNext_resolved htradable] at hprefetch
  rcases hprefetch with ⟨-, hlog, hnone⟩ | hcame
  · rw [hlog, hnone, Option.toList_none, List.map_nil, List.append_nil] at hstarted
    rw [hlog, hnone]
    exact ⟨.pending, ⟨passed, hresolvable, by rw [← hstarted]; rfl⟩, .refl _, Nat.le_refl 1⟩
  · rcases hsome : s.prefetch with _ | p
    · rw [hsome] at hcame
      cases hcame
    · have houtstanding := h.outstanding
      rw [hsome] at hcame hstarted
      rw [ItemLoop.pending, current?, hturn, hsome] at houtstanding
      obtain hcame : (Prefetch.start s.index (c.fetch s.index entry.wfmUrl itemInfo.wfmUrl)).Came p := by
        cases hcame with
        | some hcame => exact hcame
      have hindex : p.index = s.index := hcame.index_eq
      have hown : c.current s.index entry itemInfo (some p) = (p, []) := by simp [Workflows.current, hindex]
      rw [hown, List.append_nil]
      refine ⟨hcame, ⟨passed, hresolvable, by simpa [hindex] using hstarted⟩, houtstanding, ?_⟩
      rw [houtstanding.length_eq]
      exact p.length_pending_le

theorem outstanding_started {log : List FetchEvent} {before : List Nat} (next : Option Prefetch)
    (h : (Trader.outstanding log).Perm before) :
    (Trader.outstanding (log ++ next.toList.map fun p => .started p.index)).Perm
      (before ++ next.toList.map Prefetch.index) := by
  rw [outstanding_append]
  cases next with
  | none => simpa using h
  | some q => exact h.append_right [q.index]

theorem startedFetches_started (next : Option Prefetch) :
    startedFetches (next.toList.map fun p => .started p.index) = next.toList.map Prefetch.index := by
  cases next with
  | none => rfl
  | some q => rfl

/-- The head of the loop turns to an entry the cache can resolve. -/
theorem Running.turnTo {entry : ItemEntry} {rest : List ItemEntry} {itemInfo : CacheTradableItem}
    (h : s.Running c entries) (hturn : s.turn = none) (hrest : s.rest = entry :: rest)
    (htradable : c.tradable entry.wfmUrl = some itemInfo) :
    (c.head false s).Running c entries := by
  obtain ⟨hcame, ⟨passed, hresolvable, hstarted⟩, houtstanding, -⟩ := h.current_spec hturn hrest htradable
  simp only [Workflows.head, hrest, htradable, Bool.false_eq_true, if_false]
  refine ⟨h.ended, .inr (Workflows.came_startNext _ _), ⟨passed ++ [s.index], ?_, ?_⟩, ?_, ?_⟩
  · rw [hresolvable, List.append_cons]
    rfl
  · rw [startedFetches_append, hstarted, startedFetches_started]
  · have hpending := Workflows.startNext_pending (c := c) (s.index + 1) rest
    simp only [ItemLoop.pending, current?, Option.map_some, Option.getD_some, hpending]
    exact outstanding_started _ houtstanding
  · rintro _ _ _ _ ⟨⟩
    exact hcame

theorem Running.head (h : s.Running c entries) (hturn : s.turn = none) (stop : Bool) :
    (c.head stop s).Orderly c entries := by
  have hcurrent : (s.current?.map Prefetch.pending).getD [] = [] := by simp [current?, hturn]
  have hahead : s.ahead = s.index := by simp [ahead, hturn]
  rcases hrest : s.rest with _ | ⟨entry, rest⟩
  · have hnone : s.prefetch = none := by
      have hprefetch := h.prefetch
      rw [hrest] at hprefetch
      rcases hprefetch with ⟨-, -, hnone⟩ | hcame
      · exact hnone
      · exact Workflows.came_nil hcame
    have hend : c.head stop s = s.leave (.ok false) := by
      simp [Workflows.head, ItemLoop.leave, hrest, hnone, hturn]
    rw [hend]
    exact .inr (h.leave hcurrent)
  · cases stop with
    | true =>
        simp only [Workflows.head, hrest, if_true]
        exact .inr (h.leave hcurrent)
    | false =>
        cases htradable : c.tradable entry.wfmUrl with
        | some itemInfo => exact .inl (h.turnTo hturn hrest htradable)
        | none =>
            have hskip : c.head false s = { s with index := s.index + 1, rest := rest } := by
              simp [Workflows.head, hrest, htradable]
            rw [hskip]
            obtain ⟨passed, hresolvable, hstarted⟩ := h.started
            rw [hahead, hrest, Workflows.resolvable_skipped htradable] at hresolvable
            have hprefetch := h.prefetch
            rw [hahead, hrest, Workflows.startNext_skipped htradable] at hprefetch
            refine .inl ⟨h.ended, ?_, ?_, ?_, ?_⟩
            · simpa [ahead, hturn] using hprefetch
            · exact ⟨passed, by simpa [ahead, hturn] using hresolvable, hstarted⟩
            · exact h.outstanding
            · rw [hturn]
              nofun

/-! ### The same entries with the same books -/

theorem remaining_leave (stops : List Bool) :
    c.remaining (s.leave result) stops = ⟨result, s.world, s.handled⟩ := rfl

theorem remaining_pollPrefetch (ready : Nat → Bool) (stops : List Bool) :
    c.remaining (s.pollPrefetch ready) stops = c.remaining s stops := rfl

theorem remaining_pollCurrent (ready : Nat → Bool) (stops : List Bool) :
    c.remaining (s.pollCurrent ready) stops = c.remaining s stops := by
  rcases s with ⟨index, rest, prefetch, _ | ⟨entry, itemInfo, reached, current | book⟩, _ | result, world, handled, log⟩
  all_goals rfl

theorem Running.remaining_takeOut (h : s.Running c entries) (stops : List Bool) :
    c.remaining s.takeOut stops = c.remaining s stops := by
  rcases hturn : s.turn with _ | ⟨entry, itemInfo, reached, current | book⟩
  · simp only [ItemLoop.takeOut, hturn]
  · rcases hout : current.out with _ | e | book
    · simp only [ItemLoop.takeOut, hturn, hout]
    · have hfetch := (h.out_eq hturn hout).1
      simp only [ItemLoop.takeOut, hturn, hout, remaining_leave]
      simp only [Workflows.remaining, h.ended, hturn, ← hfetch, Workflows.process]
    · have hfetch := (h.out_eq hturn hout).1
      simp only [ItemLoop.takeOut, hturn, hout]
      simp only [Workflows.remaining, h.ended, hturn, ← hfetch]
  · simp only [ItemLoop.takeOut, hturn]

theorem remaining_progressEntry (hended : s.ended = none) (done : Bool) (stops : List Bool) :
    c.remaining (c.progressEntry done s) stops = c.remaining s stops := by
  rcases hturn : s.turn with _ | ⟨entry, itemInfo, reached, current | book⟩
  · simp only [Workflows.progressEntry, hturn]
  · simp only [Workflows.progressEntry, hturn]
  · cases done with
    | false => simp [Workflows.progressEntry, hturn]
    | true =>
        rcases hresult : (c.progress reached entry itemInfo book s.world).1 with e | ⟨⟩
        · simp only [Workflows.progressEntry, hturn, hresult, if_true, remaining_leave]
          simp only [Workflows.remaining, hended, hturn, Workflows.process, hresult]
        · simp only [Workflows.progressEntry, hturn, hresult, if_true]
          simp only [Workflows.remaining, hended, hturn, Workflows.process, hresult]

theorem Running.remaining_poll (h : s.Running c entries) (ready : Nat → Bool) (done : Bool) (stops : List Bool) :
    c.remaining (c.poll ready done s) stops = c.remaining s stops := by
  have hpolled := (h.pollPrefetch ready).pollCurrent ready
  have hsame : c.remaining (c.poll ready done s) stops =
      c.remaining ((s.pollPrefetch ready).pollCurrent ready).takeOut stops := by
    rcases hpolled.takeOut with hrunning | hended
    · exact remaining_progressEntry hrunning.ended done stops
    · rw [Workflows.poll, hended.progressEntry]
  rw [hsame, hpolled.remaining_takeOut, remaining_pollCurrent, remaining_pollPrefetch]

theorem Running.remaining_head (h : s.Running c entries) (hturn : s.turn = none) (stop : Bool)
    (stops : List Bool) : c.remaining (c.head stop s) stops = c.remaining s (stop :: stops) := by
  have hremaining : c.remaining s (stop :: stops) = c.sequential (stop :: stops) s.index s.rest s.world s.handled := by
    simp only [Workflows.remaining, h.ended, hturn]
  rw [hremaining]
  rcases hrest : s.rest with _ | ⟨entry, rest⟩
  · simp only [Workflows.head, hrest, Workflows.remaining, Workflows.sequential]
  · cases stop with
    | true => 
        simp only [Workflows.head, hrest, if_true, remaining_leave, Workflows.sequential, List.headD_cons]
    | false =>
        cases htradable : c.tradable entry.wfmUrl with
        | none =>
            simp only [Workflows.head, hrest, htradable, Bool.false_eq_true, if_false, Workflows.sequential,
              List.headD_cons, List.tail_cons, Workflows.remaining, h.ended, hturn]
        | some itemInfo =>
            simp only [Workflows.head, hrest, htradable, Bool.false_eq_true, if_false, Workflows.sequential,
              List.headD_cons, List.tail_cons, Workflows.remaining, h.ended]

theorem Orderly.running_of_turn (h : s.Orderly c entries) (hturn : s.turn.isSome = true) : s.Running c entries := by
  rcases h with hrunning | hended
  · exact hrunning
  · rw [hended.turn] at hturn
    cases hturn

theorem Orderly.running_of_none (h : s.Orderly c entries) (hended : s.ended = none) : s.Running c entries := by
  rcases h with hrunning | h
  · exact hrunning
  · have := h.ended
    rw [hended] at this
    cases this

/-- One step of the loop keeps the invariant and what the sequential loop would still do. -/
theorem Orderly.step {l : LoopLabel} {t : ItemLoop W R} (h : s.Orderly c entries) (hstep : c.step s l = some t) :
    t.Orderly c entries ∧ ∀ stops, c.remaining t stops = c.remaining s (l.stops ++ stops) := by
  cases l with
  | head stop =>
      simp only [Workflows.step, Bool.and_eq_true, Option.isNone_iff_eq_none] at hstep
      split at hstep
      · next hguard =>
          cases hstep
          have hrunning := h.running_of_none hguard.1
          exact ⟨hrunning.head hguard.2 stop, hrunning.remaining_head hguard.2 stop⟩
      · cases hstep
  | poll ready done =>
      simp only [Workflows.step] at hstep
      split at hstep
      · next hguard =>
          cases hstep
          have hrunning := h.running_of_turn hguard
          exact ⟨hrunning.poll ready done, hrunning.remaining_poll ready done⟩
      · cases hstep

theorem orderly_init (c : Workflows W R) (entries : List ItemEntry) (world : W) :
    (init entries world : ItemLoop W R).Orderly c entries :=
  .inl ⟨rfl, .inl ⟨rfl, rfl, rfl⟩, ⟨[], rfl, rfl⟩, .refl _, nofun⟩

/-- A whole run keeps the invariant and what the sequential loop makes of it. -/
theorem Orderly.run {ls : List LoopLabel} {t : ItemLoop W R} (h : s.Orderly c entries)
    (run : Trace c.step s ls t) :
    t.Orderly c entries ∧ ∀ stops, c.remaining t stops = c.remaining s (ls.flatMap LoopLabel.stops ++ stops) := by
  induction run with
  | nil s => exact ⟨h, fun _ => rfl⟩
  | cons first _ ih =>
      obtain ⟨hnext, hfirst⟩ := h.step first
      obtain ⟨hlast, hrest⟩ := ih hnext
      refine ⟨hlast, fun stops => ?_⟩
      rw [hrest, hfirst, List.flatMap_cons, List.append_assoc]

end ItemLoop

/-! ### How many fetches are under way -/

theorem length_apply_le (under : List Nat) (event : FetchEvent) :
    (event.apply under).length ≤ under.length + (startedFetches [event]).length := by
  cases event with
  | started index => simp [FetchEvent.apply, startedFetches, FetchEvent.index?]
  | finished index => exact (List.length_erase_le ..).trans (Nat.le_add_right ..)
  | cancelled index => exact (List.length_erase_le ..).trans (Nat.le_add_right ..)

theorem length_outstanding_append_le (log events : List FetchEvent) :
    (outstanding (log ++ events)).length ≤ (outstanding log).length + (startedFetches events).length := by
  rw [outstanding_append]
  generalize outstanding log = under
  induction events generalizing under with
  | nil => exact Nat.le_add_right ..
  | cons event events ih =>
      have hone := length_apply_le under event
      have hrest := ih (event.apply under)
      have hsplit : startedFetches (event :: events) = startedFetches [event] ++ startedFetches events :=
        startedFetches_append [event] events
      rw [List.foldl_cons, hsplit, List.length_append]
      omega

/-- At no moment were more than two fetches under way. -/
def AtMostTwo (log : List FetchEvent) : Prop := ∀ earlier, earlier <+: log → (outstanding earlier).length ≤ 2

theorem AtMostTwo.append {log events : List FetchEvent} (h : AtMostTwo log)
    (hle : (outstanding log).length + (startedFetches events).length ≤ 2) : AtMostTwo (log ++ events) := by
  intro earlier hearlier
  rcases List.prefix_or_prefix_of_prefix hearlier (List.prefix_append log events) with hold | ⟨some, hsome⟩
  · exact h earlier hold
  · subst hsome
    have hpre : some <+: events := (List.prefix_append_right_inj log).mp hearlier
    have hcount := (hpre.filterMap FetchEvent.index?).length_le
    have hunder := length_outstanding_append_le log some
    simp only [startedFetches] at hunder hle
    omega

/-- Nothing is started. -/
theorem AtMostTwo.quiet {log events : List FetchEvent} (h : AtMostTwo log) (hquiet : startedFetches events = []) :
    AtMostTwo (log ++ events) :=
  h.append (by rw [hquiet]; exact h log List.prefix_rfl)

namespace ItemLoop

variable {W R : Type} {c : Workflows W R} {entries : List ItemEntry} {s : ItemLoop W R}
  {result : Except Error Bool}

theorem atMostTwo_leave (h : AtMostTwo s.log) : AtMostTwo (s.leave result).log := by
  refine h.quiet ?_
  cases s.prefetch with
  | none => rfl
  | some p => exact startedFetches_dropEvents p

theorem atMostTwo_pollPrefetch (h : AtMostTwo s.log) (ready : Nat → Bool) : AtMostTwo (s.pollPrefetch ready).log := by
  refine h.quiet ?_
  cases s.prefetch with
  | none => rfl
  | some p => exact startedFetches_pollEvents p ready

theorem atMostTwo_pollCurrent (h : AtMostTwo s.log) (ready : Nat → Bool) : AtMostTwo (s.pollCurrent ready).log := by
  rcases hturn : s.turn with _ | ⟨entry, itemInfo, reached, current | book⟩
  · simpa only [ItemLoop.pollCurrent, hturn] using h
  · simpa only [ItemLoop.pollCurrent, hturn] using h.quiet (startedFetches_pollEvents current ready)
  · simpa only [ItemLoop.pollCurrent, hturn] using h

theorem atMostTwo_takeOut (h : AtMostTwo s.log) : AtMostTwo s.takeOut.log := by
  rcases hturn : s.turn with _ | ⟨entry, itemInfo, reached, current | book⟩
  · simpa only [ItemLoop.takeOut, hturn] using h
  · rcases hout : current.out with _ | e | book
    · simpa only [ItemLoop.takeOut, hturn, hout] using h
    · simpa only [ItemLoop.takeOut, hturn, hout] using atMostTwo_leave h
    · simpa only [ItemLoop.takeOut, hturn, hout] using h
  · simpa only [ItemLoop.takeOut, hturn] using h

theorem atMostTwo_progressEntry (h : AtMostTwo s.log) (done : Bool) : AtMostTwo (c.progressEntry done s).log := by
  rcases hturn : s.turn with _ | ⟨entry, itemInfo, reached, current | book⟩
  · simpa only [Workflows.progressEntry, hturn] using h
  · simpa only [Workflows.progressEntry, hturn] using h
  · cases done with
    | false => simpa [Workflows.progressEntry, hturn] using h
    | true =>
        rcases hresult : (c.progress reached entry itemInfo book s.world).1 with e | ⟨⟩
        · simp only [Workflows.progressEntry, hturn, hresult, if_true]
          exact atMostTwo_leave h
        · simpa only [Workflows.progressEntry, hturn, hresult, if_true] using h

theorem Running.atMostTwo_head (h : s.Running c entries) (hturn : s.turn = none) (stop : Bool)
    (htwo : AtMostTwo s.log) : AtMostTwo (c.head stop s).log := by
  rcases hrest : s.rest with _ | ⟨entry, rest⟩
  · simpa only [Workflows.head, hrest] using htwo
  · cases stop with
    | true =>
        simp only [Workflows.head, hrest, if_true]
        exact atMostTwo_leave htwo
    | false =>
        cases htradable : c.tradable entry.wfmUrl with
        | none => simpa [Workflows.head, hrest, htradable] using htwo
        | some itemInfo =>
            obtain ⟨-, -, -, hone⟩ := h.current_spec hturn hrest htradable
            simp only [Workflows.head, hrest, htradable, Bool.false_eq_true, if_false, List.append_assoc]
            refine htwo.append ?_
            have hnext : (c.startNext (s.index + 1) rest).toList.length ≤ 1 := Option.length_toList_le
            rw [startedFetches_append, startedFetches_started, List.length_append, List.length_map]
            omega

theorem atMostTwo_poll (htwo : AtMostTwo s.log) (ready : Nat → Bool) (done : Bool) :
    AtMostTwo (c.poll ready done s).log :=
  atMostTwo_progressEntry (atMostTwo_takeOut (atMostTwo_pollCurrent (atMostTwo_pollPrefetch htwo ready) ready)) done

theorem Orderly.atMostTwo_step {l : LoopLabel} {t : ItemLoop W R} (h : s.Orderly c entries)
    (htwo : AtMostTwo s.log) (hstep : c.step s l = some t) : AtMostTwo t.log := by
  cases l with
  | head stop =>
      simp only [Workflows.step, Bool.and_eq_true, Option.isNone_iff_eq_none] at hstep
      split at hstep
      · next hguard =>
          cases hstep
          exact (h.running_of_none hguard.1).atMostTwo_head hguard.2 stop htwo
      · cases hstep
  | poll ready done =>
      simp only [Workflows.step] at hstep
      split at hstep
      · cases hstep
        exact atMostTwo_poll htwo ready done
      · cases hstep

theorem Orderly.atMostTwo_run {ls : List LoopLabel} {t : ItemLoop W R} (h : s.Orderly c entries)
    (htwo : AtMostTwo s.log) (run : Trace c.step s ls t) : AtMostTwo t.log := by
  have hstep : ∀ s l t, s.Orderly c entries ∧ AtMostTwo s.log → c.step s l = some t →
      t.Orderly c entries ∧ AtMostTwo t.log :=
    fun _ _ _ hs hstep => ⟨(hs.1.step hstep).1, hs.1.atMostTwo_step hs.2 hstep⟩
  exact (run.invariant hstep ⟨h, htwo⟩).2

theorem turn_progressEntry_done {entry : ItemEntry} {itemInfo : CacheTradableItem} {reached : R} {book : LiveOrders}
    (hturn : s.turn = some ⟨entry, itemInfo, reached, .progress book⟩) : (c.progressEntry true s).turn = none := by
  rcases hresult : (c.progress reached entry itemInfo book s.world).1 with e | ⟨⟩
  · simp only [Workflows.progressEntry, hturn, hresult, if_true, ItemLoop.leave]
  · simp only [Workflows.progressEntry, hturn, hresult, if_true]

/-- A poll at which everything has answered is through with the entry. -/
theorem Running.turn_poll_all (h : s.Running c entries) :
    (c.poll (fun _ => true) true s).turn = none := by
  rcases hturn : s.turn with _ | ⟨entry, itemInfo, reached, current | book⟩
  · simp [Workflows.poll, ItemLoop.pollPrefetch, ItemLoop.pollCurrent, ItemLoop.takeOut, Workflows.progressEntry, hturn]
  · have hout := (h.current hturn).out_pollProgress_all
    cases hfetch : c.fetch s.index entry.wfmUrl itemInfo.wfmUrl with
    | error e =>
        rw [hfetch] at hout
        simp [Workflows.poll, ItemLoop.pollPrefetch, ItemLoop.pollCurrent, ItemLoop.takeOut, Workflows.progressEntry,
          ItemLoop.leave, hturn, hout]
    | ok book =>
        rw [hfetch] at hout
        simp only [Workflows.poll, ItemLoop.pollPrefetch, ItemLoop.pollCurrent, ItemLoop.takeOut, hturn, hout]
        exact turn_progressEntry_done rfl
  · simp only [Workflows.poll, ItemLoop.pollPrefetch, ItemLoop.pollCurrent, ItemLoop.takeOut, hturn]
    exact turn_progressEntry_done rfl

/-- The loop can always go on until it has ended. -/
theorem Orderly.ends (h : s.Orderly c entries) :
    ∃ ls t, Trace c.step s ls t ∧ t.ended.isSome = true := by
  have hstop : ∀ {s : ItemLoop W R}, s.Orderly c entries → s.turn = none →
      ∃ ls t, Trace c.step s ls t ∧ t.ended.isSome = true := by
    intro s h hturn
    rcases hended : s.ended with _ | result
    · refine ⟨[.head true], c.head true s, .single ?_, ?_⟩
      · simp [Workflows.step, hended, hturn]
      · rcases hrest : s.rest with _ | ⟨entry, rest⟩
        · simp [Workflows.head, hrest]
        · simp [Workflows.head, ItemLoop.leave, hrest]
    · exact ⟨[], s, .nil s, by rw [hended]; rfl⟩
  cases hturn : s.turn with
  | none => exact hstop h hturn
  | some turn =>
      have hsome : s.turn.isSome = true := by rw [hturn]; rfl
      have hrunning := h.running_of_turn hsome
      obtain ⟨ls, t, run, hended⟩ := hstop (hrunning.poll (fun _ => true) true) hrunning.turn_poll_all
      exact ⟨_, t, .cons (l := .poll (fun _ => true) true) (by rw [Workflows.step, if_pos hsome]) run, hended⟩

end ItemLoop

/-! ### The loop that fetches just before processing -/

namespace Workflows

variable {W R : Type} (c : Workflows W R)

/-- A loop over `rest` fails at an entry it reached: its fetch failed, when all before it were handled, or its
processing did. -/
inductive FailedAt (k : Nat) (rest : List ItemEntry) (e : Error) : List Nat → Prop
  | fetch {before after : List ItemEntry} {entry : ItemEntry} {itemInfo : CacheTradableItem}
      (split : rest = before ++ entry :: after) (tradable : c.tradable entry.wfmUrl = some itemInfo)
      (failed : c.fetch (k + before.length) entry.wfmUrl itemInfo.wfmUrl = .error e) :
      FailedAt k rest e (c.resolvable k before)
  | progress {before after : List ItemEntry} {entry : ItemEntry} {itemInfo : CacheTradableItem} {book : LiveOrders}
      {reached : R} {world : W} (split : rest = before ++ entry :: after)
      (tradable : c.tradable entry.wfmUrl = some itemInfo)
      (fetched : c.fetch (k + before.length) entry.wfmUrl itemInfo.wfmUrl = .ok book)
      (failed : (c.progress reached entry itemInfo book world).1 = .error e) :
      FailedAt k rest e (c.resolvable k before ++ [k + before.length])

/-- Which positions a loop that ends so has handled. -/
def Handles (k : Nat) (rest : List ItemEntry) (result : Except Error Bool) (handled : List Nat) : Prop :=
  match result with
  | .ok false => handled = c.resolvable k rest
  | .ok true => handled <+: c.resolvable k rest
  | .error e => c.FailedAt k rest e handled

variable {c} {k : Nat} {entry : ItemEntry} {itemInfo : CacheTradableItem} {rest : List ItemEntry}
  {result : Except Error Bool} {handled : List Nat}

theorem Handles.skipped (h : c.Handles (k + 1) rest result handled) (htradable : c.tradable entry.wfmUrl = none) :
    c.Handles k (entry :: rest) result handled := by
  have hskip {before : List ItemEntry} : c.resolvable k (entry :: before) = c.resolvable (k + 1) before :=
    resolvable_skipped htradable
  rcases result with e | _ | _
  · have hplace (before : List ItemEntry) : k + 1 + before.length = k + (entry :: before).length := by
      rw [List.length_cons]
      omega
    cases h with
    | @fetch before after _ _ split tradable failed =>
        rw [hplace] at failed
        rw [← hskip]
        exact .fetch (by rw [split]; rfl) tradable failed
    | @progress before after _ _ _ _ _ split tradable fetched failed =>
        rw [hplace] at fetched
        rw [hplace, ← hskip]
        exact .progress (by rw [split]; rfl) tradable fetched failed
  · exact h.trans hskip.symm
  · simp only [Handles, hskip]
    exact h

theorem Handles.passed (h : c.Handles (k + 1) rest result handled) (htradable : c.tradable entry.wfmUrl = some itemInfo) :
    c.Handles k (entry :: rest) result (k :: handled) := by
  have hpass {before : List ItemEntry} : c.resolvable k (entry :: before) = k :: c.resolvable (k + 1) before :=
    resolvable_resolved htradable
  rcases result with e | _ | _
  · have hplace (before : List ItemEntry) : k + 1 + before.length = k + (entry :: before).length := by
      rw [List.length_cons]
      omega
    cases h with
    | @fetch before after _ _ split tradable failed =>
        rw [hplace] at failed
        rw [← hpass]
        exact .fetch (by rw [split]; rfl) tradable failed
    | @progress before after _ _ _ _ _ split tradable fetched failed =>
        rw [hplace] at fetched
        rw [hplace, ← List.cons_append, ← hpass]
        exact .progress (by rw [split]; rfl) tradable fetched failed
  · exact (congrArg (k :: ·) h).trans hpass.symm
  · simp only [Handles, hpass]
    exact List.cons_prefix_cons.mpr ⟨rfl, h⟩

theorem sequential_handles (stops : List Bool) (k : Nat) (rest : List ItemEntry) (world : W)
    (before : List (Nat × LiveOrders)) :
    ∃ now, (c.sequential stops k rest world before).handled = before ++ now ∧
      c.Handles k rest (c.sequential stops k rest world before).result (now.map Prod.fst) := by
  induction rest generalizing stops k world before with
  | nil => exact ⟨[], (List.append_nil _).symm, rfl⟩
  | cons entry rest ih =>
      cases hstop : stops.headD false with
      | true =>
          simp only [sequential, hstop, if_true]
          exact ⟨[], (List.append_nil _).symm, List.nil_prefix⟩
      | false =>
          cases htradable : c.tradable entry.wfmUrl with
          | none =>
              simp only [sequential, hstop, htradable, Bool.false_eq_true, if_false]
              obtain ⟨now, heq, hnow⟩ := ih stops.tail (k + 1) world before
              exact ⟨now, heq, hnow.skipped htradable⟩
          | some itemInfo =>
              simp only [sequential, hstop, htradable, Bool.false_eq_true, if_false]
              generalize c.reach entry itemInfo world = reached
              rcases hfetch : c.fetch k entry.wfmUrl itemInfo.wfmUrl with e | book
              · exact ⟨[], (List.append_nil _).symm, .fetch (List.nil_append _).symm htradable hfetch⟩
              · rcases hresult : (c.progress reached.1 entry itemInfo book reached.2).1 with e | ⟨⟩
                · simp only [process, hresult]
                  exact ⟨[(k, book)], rfl, .progress (List.nil_append _).symm htradable hfetch hresult⟩
                · simp only [process, hresult]
                  obtain ⟨now, heq, hnow⟩ := ih stops.tail (k + 1)
                    (c.progress reached.1 entry itemInfo book reached.2).2 (before ++ [(k, book)])
                  exact ⟨(k, book) :: now, by rw [heq, List.append_assoc]; rfl, hnow.passed htradable⟩

theorem resolvable_pairwise (k : Nat) (rest : List ItemEntry) :
    (∀ j ∈ c.resolvable k rest, k ≤ j) ∧ (c.resolvable k rest).Nodup := by
  induction rest generalizing k with
  | nil => exact ⟨nofun, .nil⟩
  | cons entry rest ih =>
      obtain ⟨hle, hnodup⟩ := ih (k + 1)
      rw [resolvable]
      split
      · refine ⟨?_, List.nodup_cons.mpr ⟨fun hmem => absurd (hle k hmem) (by omega), hnodup⟩⟩
        intro j hj
        rcases List.mem_cons.mp hj with rfl | hj
        · exact Nat.le_refl _
        · exact (Nat.le_succ k).trans (hle j hj)
      · exact ⟨fun j hj => (Nat.le_succ k).trans (hle j hj), hnodup⟩

theorem mem_resolvable {j : Nat} (h : j ∈ c.resolvable k rest) :
    ∃ i entry, j = k + i ∧ rest[i]? = some entry ∧ (c.tradable entry.wfmUrl).isSome = true := by
  induction rest generalizing k with
  | nil => cases h
  | cons entry rest ih =>
      have hlater : j ∈ c.resolvable (k + 1) rest → ∃ i e, j = k + i ∧ (entry :: rest)[i]? = some e ∧
          (c.tradable e.wfmUrl).isSome = true := by
        intro hmem
        obtain ⟨i, e, hj, he, htradable⟩ := ih hmem
        exact ⟨i + 1, e, by omega, he, htradable⟩
      rw [resolvable] at h
      split at h
      · next htradable =>
          rcases List.mem_cons.mp h with rfl | hmem
          · exact ⟨0, entry, rfl, rfl, htradable⟩
          · exact hlater hmem
      · exact hlater h

end Workflows

/-! ### Every run of the prefetching loop -/

namespace ItemLoop

variable {W R : Type} {c : Workflows W R} {entries : List ItemEntry} {s : ItemLoop W R}

theorem Orderly.started_prefix (h : s.Orderly c entries) : startedFetches s.log <+: c.resolvable 0 entries := by
  rcases h with hrunning | hended
  · exact hrunning.started_prefix
  · exact hended.started

theorem Orderly.ended_of_some {result : Except Error Bool} (h : s.Orderly c entries) (hended : s.ended = some result) :
    s.Ended c entries := by
  rcases h with hrunning | h
  · rw [hrunning.ended] at hended
    cases hended
  · exact h

/-- What was handled so far is the beginning of what the sequential loop handles. -/
theorem handled_prefix (s : ItemLoop W R) (stops : List Bool) : s.handled <+: (c.remaining s stops).handled := by
  have hprocess {k : Nat} {entry : ItemEntry} {itemInfo : CacheTradableItem} {reached : R}
      {fetched : Except Error LiveOrders} {rest : List ItemEntry} :
      s.handled <+: (c.process k entry itemInfo reached fetched s.world s.handled
        (c.sequential stops (k + 1) rest)).handled := by
    rcases fetched with e | book
    · exact List.prefix_rfl
    · simp only [Workflows.process]
      split
      · exact List.prefix_append ..
      · obtain ⟨now, heq, -⟩ := Workflows.sequential_handles (c := c) stops (k + 1) rest
          (c.progress reached entry itemInfo book s.world).2 (s.handled ++ [(k, book)])
        rw [heq, List.append_assoc]
        exact List.prefix_append ..
  rcases hended : s.ended with _ | result
  · rcases hturn : s.turn with _ | ⟨entry, itemInfo, reached, current | book⟩
    · obtain ⟨now, heq, -⟩ := Workflows.sequential_handles (c := c) stops s.index s.rest s.world s.handled
      simp only [Workflows.remaining, hended, hturn, heq]
      exact List.prefix_append ..
    · simp only [Workflows.remaining, hended, hturn]
      exact hprocess
    · simp only [Workflows.remaining, hended, hturn]
      exact hprocess
  · simp only [Workflows.remaining, hended]
    exact List.prefix_rfl

end ItemLoop

/-- However the requests and the processing interleave, and whenever a stop is seen, the loop handles what the
sequential one handles and ends as it does. It starts each fetch once and only for entries the cache can
resolve, has never more than two under way and none when it has ended, and fails at an entry it has reached. -/
theorem prefetch_refines_sequential {W R : Type} (c : Workflows W R) {entries : List ItemEntry} {world : W}
    {ls : List LoopLabel} {s : ItemLoop W R} (run : Trace c.step (.init entries world) ls s) :
    (∀ result, s.ended = some result →
      c.sequential (ls.flatMap LoopLabel.stops) 0 entries world [] = ⟨result, s.world, s.handled⟩) ∧
    (∀ more, s.handled <+: (c.sequential (ls.flatMap LoopLabel.stops ++ more) 0 entries world []).handled) ∧
    (startedFetches s.log).Nodup ∧
    (∀ k ∈ startedFetches s.log, ∃ entry, entries[k]? = some entry ∧ (c.tradable entry.wfmUrl).isSome = true) ∧
    AtMostTwo s.log ∧
    (∀ result, s.ended = some result → outstanding s.log = [] ∧ c.Handles 0 entries result (s.handled.map Prod.fst)) ∧
    ∃ more t, Trace c.step s more t ∧ t.ended.isSome = true := by
  have hinit := ItemLoop.orderly_init c entries world
  obtain ⟨h, hremaining⟩ := hinit.run run
  have hsequential (more : List Bool) :
      c.sequential (ls.flatMap LoopLabel.stops ++ more) 0 entries world [] = c.remaining s more :=
    (hremaining more).symm
  have hended (result : Except Error Bool) (hresult : s.ended = some result) :
      c.sequential (ls.flatMap LoopLabel.stops) 0 entries world [] = ⟨result, s.world, s.handled⟩ := by
    have hend := hsequential []
    rw [List.append_nil] at hend
    simp only [hend, Workflows.remaining, hresult]
  refine ⟨hended, ?_, ?_, ?_, ?_, ?_, h.ends⟩
  · intro more
    rw [hsequential]
    exact s.handled_prefix more
  · exact h.started_prefix.sublist.nodup (Workflows.resolvable_pairwise 0 entries).2
  · intro k hk
    obtain ⟨i, entry, hi, hentry, htradable⟩ := Workflows.mem_resolvable (h.started_prefix.subset hk)
    exact ⟨entry, by rw [hi, Nat.zero_add]; exact hentry, htradable⟩
  · exact hinit.atMostTwo_run (fun earlier hearlier => by rw [List.prefix_nil.mp hearlier]; decide) run
  · intro result hresult
    refine ⟨(h.ended_of_some hresult).outstanding, ?_⟩
    obtain ⟨now, heq, hnow⟩ :=
      Workflows.sequential_handles (c := c) (ls.flatMap LoopLabel.stops) 0 entries world []
    rw [hended result hresult] at heq hnow
    have hsame : s.handled = now := heq.trans (List.nil_append now)
    rw [hsame]
    exact hnow

namespace Workflows

/-- The book of the last entry comes before that of the first; the one between them is unknown to the cache. -/
def three : Workflows (List String) Unit where
  tradable url := if url = "gone" then none else some ⟨url, url, false⟩
  fetch _ _ _ := .ok ⟨[], []⟩
  reach _ _ w := ((), w)
  progress _ entry _ _ w := (.ok (), w ++ [entry.wfmUrl])

def threeEntries : List ItemEntry :=
  ["lens", "gone", "prism"].map fun url => { wfmUrl := url, wfmId := url, operations := ["Buy"] }

def threeLabels : List LoopLabel :=
  [.head false, .poll (fun k => k == 2) true, .poll (fun k => k == 0) true, .head false, .head false,
    .poll (fun _ => false) true, .head true]

def threeEnd : ItemLoop (List String) Unit := replay three.step (.init threeEntries []) threeLabels

end Workflows

open Workflows in
theorem prefetch_refines_sequential_three :
    (three.sequential [false, false, false, true] 0 threeEntries [] []).world = ["lens", "prism"] ∧
      startedFetches threeEnd.log = [0, 2] ∧ AtMostTwo threeEnd.log ∧ outstanding threeEnd.log = [] := by
  obtain ⟨hsequential, -, -, -, htwo, hend, -⟩ :=
    prefetch_refines_sequential three
      (trace_replay rfl : Trace three.step (.init threeEntries []) threeLabels threeEnd)
  have hended : threeEnd.ended = some (.ok false) := rfl
  exact ⟨congrArg LoopEnd.world (hsequential _ hended), rfl, htwo, (hend _ hended).1⟩

/-! ### The item trader's loop -/

section Cycle

open Effect

variable {E F : Type} (num : PriceFloats F) (out : Outside E) (ctx : TradeContext F) (slots : Slots)

/-- The loop over the entries of a cycle, when `fetch` is what the market gives for each book. -/
def itemWorkflows (fetch : String → Except Error LiveOrders) : Workflows (World E) (Route × ItemPriceInfo F) where
  tradable := ctx.tradable
  fetch _ url _ := fetch url
  reach entry itemInfo w :=
    let price := priceOf num ctx itemInfo entry
    ((routeFor w.orders.globalDryRun price.warm, price), ((turnTo entry price.warm : TraderM E Unit).exec w).2)
  progress reached entry itemInfo book w :=
    let live := readBook ctx entry book
    (do
      progressEntry num out ctx itemInfo (entry.applyMarketInfo live) reached.2 live reached.1 slots
      setProcessing none : TraderM E Unit).exec w

variable {num out ctx slots} {fetch : String → Except Error LiveOrders}

/-- One entry of the trader is one entry of the sequential loop. -/
theorem processEntry_exec (hlive : ∀ url e, out.liveOrders url e = (fetch url, e)) {entry : ItemEntry}
    {itemInfo : CacheTradableItem} (htradable : ctx.tradable entry.wfmUrl = some itemInfo) (w : World E) :
    let c := itemWorkflows num out ctx slots fetch
    let reached := c.reach entry itemInfo w
    (processEntry num out ctx slots entry).exec w =
      match fetch entry.wfmUrl with
      | .error e => (.error e, reached.2)
      | .ok book => c.progress reached.1 entry itemInfo book reached.2 := by
  intro c reached
  have hdemand : (demand (out.liveOrders entry.wfmUrl)).exec reached.2 = (fetch entry.wfmUrl, reached.2) := by
    rw [demand, exec_bind]
    simp only [ask, act, hlive]
    cases fetch entry.wfmUrl with
    | error e => rfl
    | ok book => rfl
  rw [processEntry, htradable]
  change (demand (out.liveOrders entry.wfmUrl) >>= _).exec reached.2 = _
  rw [exec_bind, hdemand]
  cases fetch entry.wfmUrl with
  | error e => rfl
  | ok book => rfl

theorem shouldStop_exec (hrunning : ∀ e, (out.running e).2 = e) (w : World E) :
    (shouldStop out ctx : TraderM E Bool).exec w = (.ok (!(out.running w.ext).1 || ctx.banned), w) := by
  have hsame : ({ w with ext := (out.running w.ext).2 } : World E) = w := by rw [hrunning]
  exact congrArg (Prod.mk _) hsame

/-- A head that sees no stop. -/
theorem eachUntil_going {entry : ItemEntry} {entries : List ItemEntry} {w : World E}
    (hrunning : ∀ e, (out.running e).2 = e) (hgoing : (!(out.running w.ext).1 || ctx.banned) = false) :
    (eachUntil (shouldStop out ctx) (entry :: entries) (processEntry num out ctx slots)).exec w =
      match ((processEntry num out ctx slots entry).exec w).1 with
      | .ok () => (eachUntil (shouldStop out ctx) entries (processEntry num out ctx slots)).exec
          ((processEntry num out ctx slots entry).exec w).2
      | .error e => (.error e, ((processEntry num out ctx slots entry).exec w).2) := by
  rw [eachUntil, exec_bind, shouldStop_exec hrunning, hgoing]
  change (processEntry num out ctx slots entry >>= fun _ => eachUntil _ entries _).exec w = _
  rw [exec_bind]
  cases ((processEntry num out ctx slots entry).exec w).1 with
  | error e => rfl
  | ok a => rfl

/-- The cycle's loop is the sequential one, for the stops that its heads see. -/
theorem processEntries_sequential (hlive : ∀ url e, out.liveOrders url e = (fetch url, e))
    (hrunning : ∀ e, (out.running e).2 = e) (entries : List ItemEntry) (k : Nat) (w : World E)
    (before : List (Nat × LiveOrders)) :
    ∃ stops, let loop := (itemWorkflows num out ctx slots fetch).sequential stops k entries w before
      (eachUntil (shouldStop out ctx) entries (processEntry num out ctx slots)).exec w = (loop.result, loop.world) := by
  induction entries generalizing k w before with
  | nil => exact ⟨[], rfl⟩
  | cons entry entries ih =>
      cases hstop : !(out.running w.ext).1 || ctx.banned with
      | true =>
          refine ⟨[true], ?_⟩
          rw [eachUntil, exec_bind, shouldStop_exec hrunning, hstop]
          rfl
      | false =>
          cases htradable : ctx.tradable entry.wfmUrl with
          | none =>
              obtain ⟨stops, hrest⟩ := ih (k + 1) w before
              refine ⟨false :: stops, ?_⟩
              have hskip : (processEntry num out ctx slots entry).exec w = (.ok (), w) := by
                rw [processEntry, htradable]
                rfl
              simp only [eachUntil_going hrunning hstop, hskip, hrest, Workflows.sequential, List.headD_cons,
                List.tail_cons, Bool.false_eq_true, if_false]
              simp only [itemWorkflows, htradable]
          | some itemInfo =>
              have hentry : (processEntry num out ctx slots entry).exec w = _ := processEntry_exec hlive htradable w
              have hresolved : (itemWorkflows num out ctx slots fetch).tradable entry.wfmUrl = some itemInfo := htradable
              have hfetched : (itemWorkflows num out ctx slots fetch).fetch k entry.wfmUrl itemInfo.wfmUrl =
                  fetch entry.wfmUrl := rfl
              generalize (itemWorkflows num out ctx slots fetch) = c at hentry hresolved hfetched ih ⊢
              cases hfetch : fetch entry.wfmUrl with
              | error e =>
                  refine ⟨[false], ?_⟩
                  rw [hfetch] at hentry
                  simp only [eachUntil_going hrunning hstop, hentry, Workflows.sequential, hresolved, hfetched, hfetch,
                    Workflows.process, List.headD_cons, Bool.false_eq_true, if_false]
              | ok book =>
                  rw [hfetch] at hentry
                  generalize hreached : c.reach entry itemInfo w = reached at hentry
                  rcases hresult : (c.progress reached.1 entry itemInfo book reached.2).1 with e | ⟨⟩
                  · refine ⟨[false], ?_⟩
                    simp only [eachUntil_going hrunning hstop, hentry, Workflows.sequential, hresolved, hfetched,
                      hfetch, hreached, Workflows.process, hresult, List.headD_cons, Bool.false_eq_true, if_false]
                  · obtain ⟨stops, hrest⟩ := ih (k + 1) (c.progress reached.1 entry itemInfo book reached.2).2
                      (before ++ [(k, book)])
                    refine ⟨false :: stops, ?_⟩
                    simp only [eachUntil_going hrunning hstop, hentry, Workflows.sequential, hresolved, hfetched,
                      hfetch, hreached, Workflows.process, hresult, hrest, List.headD_cons, List.tail_cons,
                      Bool.false_eq_true, if_false]

end Cycle

end Quantframe.Trader
