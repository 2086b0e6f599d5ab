import Quantframe.Housekeeping.Tick

/-!
# Runs of the housekeeping

The gates are what the loop has done since it was started. From them follows when a tick deletes, when it makes the
backup, and which events are there.
-/

namespace Quantframe.Housekeeping

open Lib
open Trades (Choice DateTime HelperEvent HelperEvents Op Reply answer ts)
open Utils (dayNumber nanosPerDay)

namespace Entry

def Restarted (_ : List Entry) : Entry → Prop
  | .restarted => True
  | .ticked .. => False

/-- The events were deleted at this time. -/
def RetainedAt (at_ : DateTime) (_ : List Entry) : Entry → Prop
  | .ticked p out => p.now = at_ ∧ ∃ n, out.retention = some (.ok n)
  | .restarted => False

/-- The failure of the backup of this day was told. -/
def AlertedOn (day : Int) (_ : List Entry) : Entry → Prop
  | .ticked p out => p.today = day ∧ (out.alert p).isSome = true
  | .restarted => False

end Entry

open Entry

/-- Since the loop was last started. -/
abbrev InLife (P : List Entry → Entry → Prop) : List Entry → Prop := Since P Restarted

theorem inLife_ticked {P : List Entry → Entry → Prop} {history : List Entry} {p : Pass} {out : Ticked} :
    InLife P (history ++ [.ticked p out]) ↔ P history (.ticked p out) ∨ InLife P history := by
  rw [InLife, since_concat]
  exact or_congr_right (and_iff_left not_false)

theorem not_inLife_restarted {P : List Entry → Entry → Prop} {history : List Entry} (hP : ¬ P history .restarted) :
    ¬ InLife P (history ++ [.restarted]) := by
  rw [InLife, since_concat]
  rintro (h | ⟨-, h⟩)
  · exact hP h
  · exact h trivial

namespace Keeper

variable {dates : DateFormat} {s t : Keeper} {l : Label}

/-- The time by which the jobs go. -/
def now (s : Keeper) : DateTime := s.sweeping.getD s.clock

/-- The gates say when the loop last deleted and for which day its backup last failed. -/
structure Gated (s : Keeper) : Prop where
  sweeping : s.now ≤ s.clock
  retained : ∀ last, s.gates.lastHourly = some last → last ≤ s.now ∧ InLife (RetainedAt last) s.history
  latest : ∀ at_, InLife (RetainedAt at_) s.history → ∃ last, s.gates.lastHourly = some last ∧ at_ ≤ last
  failed : ∀ day, s.gates.backupFailedOn = some day → day ≤ dayNumber s.now ∧ InLife (AlertedOn day) s.history
  told : ∀ day, InLife (AlertedOn day) s.history → ∃ last, s.gates.backupFailedOn = some last ∧ day ≤ last

theorem dayNumber_mono {a b : DateTime} (h : a ≤ b) : dayNumber a ≤ dayNumber b := by
  have hpos : (0 : Int) < nanosPerDay := by decide
  exact Int.ediv_le_ediv hpos h

/-- Time goes on, and the jobs with it. -/
theorem Gated.later (h : s.Gated) (hgates : t.gates = s.gates) (hhistory : t.history = s.history)
    (hnow : s.now ≤ t.now) (hclock : t.now ≤ t.clock) : t.Gated where
  sweeping := hclock
  retained last hlast := by
    rw [hgates] at hlast
    rw [hhistory]
    exact ⟨(h.retained last hlast).1.trans hnow, (h.retained last hlast).2⟩
  latest at_ hat := by
    rw [hhistory] at hat
    rw [hgates]
    exact h.latest at_ hat
  failed day hday := by
    rw [hgates] at hday
    rw [hhistory]
    exact ⟨(h.failed day hday).1.trans (dayNumber_mono hnow), (h.failed day hday).2⟩
  told day hday := by
    rw [hhistory] at hday
    rw [hgates]
    exact h.told day hday

theorem Started.gated (h : s.Started dates) : s.Gated where
  sweeping := by
    rw [now, h.sweeping]
    exact le_refl s.clock
  retained last hlast := by
    rw [h.gates] at hlast
    cases hlast
  latest at_ hat := by
    rw [h.history] at hat
    exact absurd hat not_since_nil
  failed day hday := by
    rw [h.gates] at hday
    cases hday
  told day hday := by
    rw [h.history] at hday
    exact absurd hday not_since_nil

theorem restarted_gated (s : Keeper) : Gated s.restart where
  sweeping := le_refl s.clock
  retained last hlast := by cases hlast
  latest at_ hat := absurd hat (not_inLife_restarted not_false)
  failed day hday := by cases hday
  told day hday := absurd hday (not_inLife_restarted not_false)

theorem Gated.finish (h : s.Gated) {p : Pass} (hnow : s.sweeping = some p.now) : Gated (s.finish dates p) := by
  have hat : s.now = p.now := by rw [now, hnow, Option.getD_some]
  have hclock : p.now ≤ s.clock := hat ▸ h.sweeping
  refine ⟨le_refl s.clock, ?_, ?_, ?_, ?_⟩
  · intro last hlast
    rcases @retention_cases dates p s.events s.dir s.gates with ⟨hdeleted, -, hgate⟩ | ⟨-, -, hgate⟩
    · cases hgate.symm.trans hlast
      exact ⟨hclock, inLife_ticked.mpr (.inl ⟨rfl, hdeleted⟩)⟩
    · obtain ⟨hle, hlife⟩ := h.retained last (hgate.symm.trans hlast)
      exact ⟨hle.trans h.sweeping, inLife_ticked.mpr (.inr hlife)⟩
  · intro at_ hlife
    rcases @retention_cases dates p s.events s.dir s.gates with ⟨-, -, hgate⟩ | ⟨hkept, -, hgate⟩
    · refine ⟨p.now, hgate, ?_⟩
      rcases inLife_ticked.mp hlife with ⟨rfl, -⟩ | hbefore
      · exact le_refl _
      · obtain ⟨last, hlast, hle⟩ := h.latest at_ hbefore
        exact hle.trans ((h.retained last hlast).1.trans hat.le)
    · rcases inLife_ticked.mp hlife with ⟨-, n, hn⟩ | hbefore
      · exact absurd hn (hkept n)
      · obtain ⟨last, hlast, hle⟩ := h.latest at_ hbefore
        exact ⟨last, hgate.trans hlast, hle⟩
  · intro day hday
    rcases @backup_cases dates p s.events s.dir s.gates with ⟨-, halert, hgate⟩ | ⟨-, hgate⟩
    · cases hgate.symm.trans hday
      exact ⟨dayNumber_mono hclock, inLife_ticked.mpr (.inl ⟨rfl, halert⟩)⟩
    · obtain ⟨hle, hlife⟩ := h.failed day (hgate.symm.trans hday)
      exact ⟨hle.trans (dayNumber_mono h.sweeping), inLife_ticked.mpr (.inr hlife)⟩
  · intro day hlife
    rcases @backup_cases dates p s.events s.dir s.gates with ⟨-, -, hgate⟩ | ⟨hquiet, hgate⟩
    · refine ⟨p.today, hgate, ?_⟩
      rcases inLife_ticked.mp hlife with ⟨rfl, -⟩ | hbefore
      · exact le_refl _
      · obtain ⟨last, hlast, hle⟩ := h.told day hbefore
        have hfailed := (h.failed last hlast).1
        rw [hat] at hfailed
        exact hle.trans hfailed
    · rcases inLife_ticked.mp hlife with ⟨-, halert⟩ | hbefore
      · rw [hquiet] at halert
        cases halert
      · obtain ⟨last, hlast, hle⟩ := h.told day hbefore
        exact ⟨last, hgate.trans hlast, hle⟩

theorem gated_step (h : s.Gated) (hmoves : Moves dates s l t) : t.Gated := by
  cases hmoves with
  | time now hle =>
      refine h.later rfl rfl ?_ ?_
      · rw [Keeper.now, Keeper.now]
        cases s.sweeping with
        | none => exact hle
        | some at_ => exact le_refl at_
      · have hsweeping := h.sweeping
        rw [Keeper.now] at hsweeping ⊢
        cases hs : s.sweeping with
        | none => exact le_refl now
        | some at_ =>
            rw [hs] at hsweeping
            exact le_trans hsweeping hle
  | statement => exact h.later rfl rfl (le_refl _) h.sweeping
  | wake => exact h.later rfl rfl h.sweeping (le_refl s.clock)
  | finish p hnow => exact h.finish hnow
  | restart => exact restarted_gated s

/-! ### When the jobs are done -/

/-- A tick deletes unless the loop did in the hour before. It makes the backup unless the loop has told that it failed
this day; and then, or now, there is a backup of the day or it was told that it failed. -/
def Timely (dates : DateFormat) (before : List Entry) : Entry → Prop
  | .restarted => True
  | .ticked p out =>
    (out.retention = none ↔ ∃ at_, InLife (RetainedAt at_) before ∧ p.now - at_ < hourly) ∧
      (out.backup = none ↔ InLife (AlertedOn p.today) before) ∧
      (p.today ∈ datesIn dates out.dir ∨ InLife (AlertedOn p.today) (before ++ [.ticked p out]))

/-- The gates, and no backup of a day to come. -/
structure Kept (dates : DateFormat) (s : Keeper) : Prop where
  gated : s.Gated
  dated : ∀ date ∈ datesIn dates s.dir, date ≤ dayNumber s.now

theorem Kept.timely (hreads : dates.Reads) (h : Kept dates s) {p : Pass} (hnow : s.sweeping = some p.now) :
    Timely dates s.history (.ticked p (tick dates p s.events s.dir s.gates)) := by
  have hat : s.now = p.now := by rw [now, hnow, Option.getD_some]
  have htoday : s.gates.backupFailedOn = some p.today ↔ InLife (AlertedOn p.today) s.history := by
    constructor
    · intro hfailed
      exact (h.gated.failed _ hfailed).2
    · intro htold
      obtain ⟨last, hlast, hle⟩ := h.gated.told _ htold
      have hbefore := (h.gated.failed last hlast).1
      rw [hat] at hbefore
      rw [hlast, le_antisymm hbefore hle]
      rfl
  refine ⟨?_, ?_, ?_⟩
  · rw [retention_due]
    constructor
    · intro ⟨last, hlast, hrecent⟩
      exact ⟨last, (h.gated.retained last hlast).2, hrecent⟩
    · intro ⟨at_, hlife, hrecent⟩
      obtain ⟨last, hlast, hle⟩ := h.gated.latest at_ hlife
      exact ⟨last, hlast, lt_of_le_of_lt (Int.sub_le_sub_left hle p.now) hrecent⟩
  · rw [backup_due]
    exact htoday
  · have hdated := h.dated
    rw [hat] at hdated
    rcases @tick_dated dates p s.events s.dir s.gates hreads hdated with hin | halert | hfailed
    · exact .inl hin
    · exact .inr (inLife_ticked.mpr (.inl ⟨rfl, halert⟩))
    · exact .inr (inLife_ticked.mpr (.inr (htoday.mp hfailed)))

theorem kept_step (hreads : dates.Reads) (h : Kept dates s) (hmoves : Moves dates s l t) : Kept dates t := by
  refine ⟨gated_step h.gated hmoves, ?_⟩
  cases hmoves with
  | time now hle =>
      intro date hdate
      refine (h.dated date hdate).trans (dayNumber_mono ?_)
      rw [Keeper.now, Keeper.now]
      cases s.sweeping with
      | none => exact hle
      | some at_ => exact le_refl at_
  | statement => exact h.dated
  | wake =>
      intro date hdate
      exact (h.dated date hdate).trans (dayNumber_mono h.gated.sweeping)
  | finish p hnow =>
      have hat : s.now = p.now := by rw [now, hnow, Option.getD_some]
      intro date hdate
      have hclock := dayNumber_mono h.gated.sweeping
      rcases @dates_tick dates p s.events s.dir s.gates hreads date hdate with hold | rfl
      · exact (h.dated date hold).trans hclock
      · rw [hat] at hclock
        exact hclock
  | restart =>
      intro date hdate
      exact (h.dated date hdate).trans (dayNumber_mono h.gated.sweeping)

theorem Started.kept (h : s.Started dates) : Kept dates s where
  gated := h.gated
  dated := by
    rw [now, h.sweeping]
    exact h.dir

/-- What holds of the history when what is kept does. -/
theorem history_step {Inv : Keeper → Prop} {P : List Entry → Entry → Prop} (hrestart : ∀ before, P before .restarted)
    (hfinish : ∀ p, Inv s → s.sweeping = some p.now → P s.history (.ticked p (tick dates p s.events s.dir s.gates)))
    (hs : Inv s) (h : Throughout P s.history) (hmoves : Moves dates s l t) : Throughout P t.history := by
  cases hmoves with
  | time | statement | wake => exact h
  | finish p hnow => exact throughout_concat.mpr ⟨h, hfinish p hs hnow⟩
  | restart => exact throughout_concat.mpr ⟨h, hrestart _⟩

/-- In every run, with any failures and restarts, the jobs are done in time. -/
theorem jobs_run (hreads : dates.Reads) (hs : s.Started dates) {ls : List Label} (h : Trace (step dates) s ls t) :
    Throughout (Timely dates) t.history := by
  have hinv : Kept dates t ∧ Throughout (Timely dates) t.history := by
    refine @Trace.invariant _ _ _ (fun u => Kept dates u ∧ Throughout (Timely dates) u.history) ?_ s t ls h ⟨hs.kept, ?_⟩
    · intro u l v hu hstep
      have hmoves := moves hstep
      refine ⟨kept_step hreads hu.1 hmoves, ?_⟩
      exact history_step (fun _ => trivial) (fun p hkept hnow => hkept.timely hreads hnow) hu.1 hu.2 hmoves
    · rw [hs.history]
      exact throughout_nil
  exact hinv.2

/-! ### A Wednesday at noon -/

def septemberEvent : HelperEvent :=
  { eventId := "failed", deviceName := "gaming-pc", receivedAt := 1789560000, detectedAt := 1789560000
    status := .needsReview, reason := some "apply_failed: HandleItem", payload := ⟨"PlayerB", "1170.388", [], []⟩
    resolution := none, reviewedAt := none, alertedAt := none }

/-- The loop has been started; there is an event, and the backup of the Sunday before. -/
def septemberKeeper : Keeper where
  clock := 1789560060000000000
  events := HelperEvents.empty.insert septemberEvent rfl
  dir := ["quantframe-2026-09-13.sqlite"]
  gates := .default
  sweeping := none
  history := []

def septemberPass (now : DateTime) (copied : Except Trades.Error Unit) : Pass :=
  ⟨now, .ok 0, .ok (), copied, .ok (), fun _ => .ok ()⟩

/-- The backup fails, is not tried a minute later, and is made by the loop when it is started anew. -/
def septemberLabels : List Label :=
  [.wake, .finish (septemberPass 1789560060000000000 (.error ⟨"Housekeeping:Verify", "integrity_check: corrupt"⟩)),
    .time 1789560120000000000, .wake, .finish (septemberPass 1789560120000000000 (.ok ())), .restart, .wake,
    .finish (septemberPass 1789560120000000000 (.ok ()))]

theorem septemberKeeper_started : septemberKeeper.Started septemberDates where
  gates := rfl
  sweeping := rfl
  history := rfl
  dir := by decide +kernel

theorem jobs_run_september :
    Throughout (Timely septemberDates) (replay (step septemberDates) septemberKeeper septemberLabels).history :=
  jobs_run septemberDates_reads septemberKeeper_started (trace_replay (by decide +kernel))

/-! ### Which events are there -/

/-- A row that stays, with what it was received as. -/
def Stays (row : HelperEvent) (events : HelperEvents) : Prop :=
  ∃ e ∈ events.rows, e.eventId = row.eventId ∧ e.receivedAt = row.receivedAt

theorem rows_update {events : HelperEvents} {id : String} {f : HelperEvent → HelperEvent}
    {hf : ∀ e, (f e).eventId = e.eventId} (hreceived : ∀ e, (f e).receivedAt = e.receivedAt) :
    (∀ row ∈ events.rows, Stays row (events.update id f hf)) ∧
      ∀ e ∈ (events.update id f hf).rows, ∃ row ∈ events.rows, e.receivedAt = row.receivedAt := by
  have hrow : ∀ e, (if e.eventId == id then f e else e).eventId = e.eventId ∧
      (if e.eventId == id then f e else e).receivedAt = e.receivedAt := by
    intro e
    split
    · exact ⟨hf e, hreceived e⟩
    · exact ⟨rfl, rfl⟩
  constructor
  · intro row hin
    exact ⟨_, List.mem_map_of_mem hin, hrow row⟩
  · intro e he
    obtain ⟨row, hin, rfl⟩ := List.mem_map.mp he
    exact ⟨row, hin, (hrow row).2⟩

/-- A statement takes no row away, and adds one that is not old. -/
theorem rows_answer {events events' : HelperEvents} {o : Op} {choice : Choice} {reply : Reply o} {clock : DateTime}
    (hfresh : ¬ Stale clock o) (h : answer o choice events = some (reply, events')) :
    (∀ row ∈ events.rows, Stays row events') ∧
      ∀ e ∈ events'.rows, (∃ row ∈ events.rows, e.receivedAt = row.receivedAt) ∨
        ts (clock - retentionDays * nanosPerDay) ≤ e.receivedAt := by
  have hsame : (∀ row ∈ events.rows, Stays row events) ∧
      ∀ e ∈ events.rows, (∃ row ∈ events.rows, e.receivedAt = row.receivedAt) ∨
        ts (clock - retentionDays * nanosPerDay) ≤ e.receivedAt :=
    ⟨fun row hin => ⟨row, hin, rfl, rfl⟩, fun e he => .inl ⟨e, he, rfl⟩⟩
  have hupdate : ∀ (id : String) (f : HelperEvent → HelperEvent) (hf : ∀ e, (f e).eventId = e.eventId),
      (∀ e, (f e).receivedAt = e.receivedAt) → (∀ row ∈ events.rows, Stays row (events.update id f hf)) ∧
        ∀ e ∈ (events.update id f hf).rows, (∃ row ∈ events.rows, e.receivedAt = row.receivedAt) ∨
          ts (clock - retentionDays * nanosPerDay) ≤ e.receivedAt := by
    intro id f hf hreceived
    exact ⟨(rows_update hreceived).1, fun e he => .inl ((rows_update hreceived).2 e he)⟩
  cases o with
  | insert event =>
      cases choice with
      | works =>
          rw [answer] at h
          split at h
          · cases h
            refine ⟨fun row hin => ⟨row, List.mem_append_left _ hin, rfl, rfl⟩, fun e he => ?_⟩
            rcases List.mem_append.mp he with hold | hnew
            · exact .inl ⟨e, hold, rfl⟩
            · cases List.mem_singleton.mp hnew
              exact .inr (not_lt.mp hfresh)
          · cases h
            exact hsame
      | fails | items => cases h <;> exact hsame
  | setStatus | markAlerted | setReason =>
      cases choice with
      | works =>
          cases h
          exact hupdate _ _ _ fun _ => rfl
      | fails | items => cases h <;> exact hsame
  | _ => cases choice <;> cases h <;> exact hsame

/-- No row is older than ninety days when the events were last deleted. -/
def Aged (s : Keeper) : Prop :=
  ∀ last, s.gates.lastHourly = some last → ∀ row ∈ s.events.rows, ts (last - retentionDays * nanosPerDay) ≤ row.receivedAt

/-- After a tick whose deletion did not fail no row is older than ninety days and an hour. -/
def Bounded (_ : List Entry) : Entry → Prop
  | .restarted => True
  | .ticked p out => (∃ e, out.retention = some (.error e)) ∨
      ∀ row ∈ out.events.rows, ts (p.now - hourly - retentionDays * nanosPerDay) ≤ row.receivedAt

theorem ts_mono {a b : DateTime} (h : a ≤ b) : ts a ≤ ts b := by
  have hpos : (0 : Int) < 1000000000 := by decide
  exact Int.ediv_le_ediv hpos h

theorem received_applyRetention {now : DateTime} {events : HelperEvents} {row : HelperEvent}
    (h : row ∈ (applyRetention now events).rows) : ts (now - retentionDays * nanosPerDay) ≤ row.receivedAt :=
  of_decide_eq_true (List.mem_filter.mp h).2

theorem aged_step (hgated : s.Gated) (h : s.Aged) (hmoves : Moves dates s l t) : t.Aged := by
  cases hmoves with
  | time | wake => exact h
  | restart =>
      intro last hlast
      cases hlast
  | statement o choice reply events hfresh hanswer =>
      intro last hlast e he
      rcases (rows_answer hfresh hanswer).2 e he with ⟨row, hin, hreceived⟩ | hnew
      · rw [hreceived]
        exact h last hlast row hin
      · have hclock : last ≤ s.clock := (hgated.retained last hlast).1.trans hgated.sweeping
        exact (ts_mono (Int.sub_le_sub_right hclock _)).trans hnew
  | finish p hnow =>
      intro last hlast row hin
      rcases @retention_cases dates p s.events s.dir s.gates with ⟨-, hevents, hgate⟩ | ⟨-, hevents, hgate⟩
      · cases hgate.symm.trans hlast
        replace hin : row ∈ (tick dates p s.events s.dir s.gates).events.rows := hin
        rw [hevents] at hin
        exact received_applyRetention hin
      · replace hin : row ∈ (tick dates p s.events s.dir s.gates).events.rows := hin
        rw [hevents] at hin
        exact h last (hgate.symm.trans hlast) row hin

theorem Aged.bounded (h : s.Aged) (p : Pass) :
    Bounded s.history (.ticked p (tick dates p s.events s.dir s.gates)) := by
  have hhour : (0 : Int) ≤ hourly := by decide
  rcases @retention_cases dates p s.events s.dir s.gates with ⟨-, hevents, -⟩ | ⟨hkept, hevents, -⟩
  · refine .inr fun row hin => ?_
    rw [hevents] at hin
    have hle : p.now - hourly ≤ p.now := Int.sub_le_self _ hhour
    exact (ts_mono (Int.sub_le_sub_right hle _)).trans (received_applyRetention hin)
  · cases hretention : (tick dates p s.events s.dir s.gates).retention with
    | none =>
        obtain ⟨last, hlast, hrecent⟩ := retention_due.mp hretention
        refine .inr fun row hin => ?_
        rw [hevents] at hin
        have hle : p.now - hourly ≤ last := sub_le_comm.mp hrecent.le
        exact (ts_mono (Int.sub_le_sub_right hle _)).trans (h last hlast row hin)
    | some deleted =>
        cases deleted with
        | ok n => exact absurd hretention (hkept n)
        | error e => exact .inl ⟨e, hretention⟩

/-- A row is there until it is ninety days old. -/
theorem stays_step {row : HelperEvent} (hgated : s.Gated)
    (h : Stays row s.events ∨ row.receivedAt < ts (s.clock - retentionDays * nanosPerDay))
    (hmoves : Moves dates s l t) :
    Stays row t.events ∨ row.receivedAt < ts (t.clock - retentionDays * nanosPerDay) := by
  cases hmoves with
  | time now hle =>
      rcases h with hin | hold
      · exact .inl hin
      · exact .inr (lt_of_lt_of_le hold (ts_mono (Int.sub_le_sub_right hle _)))
  | wake | restart => exact h
  | statement o choice reply events hfresh hanswer =>
      rcases h with ⟨e, hin, hid, hreceived⟩ | hold
      · obtain ⟨e', hin', hid', hreceived'⟩ := (rows_answer hfresh hanswer).1 e hin
        exact .inl ⟨e', hin', hid'.trans hid, hreceived'.trans hreceived⟩
      · exact .inr hold
  | finish p hnow =>
      rcases h with ⟨e, hin, hid, hreceived⟩ | hold
      · have hevents : (s.finish dates p).events = (tick dates p s.events s.dir s.gates).events := rfl
        rw [hevents]
        rcases @retention_cases dates p s.events s.dir s.gates with ⟨-, hdeleted, -⟩ | ⟨-, hkept, -⟩
        · rw [hdeleted]
          by_cases hyoung : ts (p.now - retentionDays * nanosPerDay) ≤ e.receivedAt
          · exact .inl ⟨e, List.mem_filter.mpr ⟨hin, decide_eq_true hyoung⟩, hid, hreceived⟩
          · have hsweeping := hgated.sweeping
            rw [now, hnow, Option.getD_some] at hsweeping
            rw [hreceived] at hyoung
            exact .inr (lt_of_lt_of_le (not_le.mp hyoung) (ts_mono (Int.sub_le_sub_right hsweeping _)))
        · rw [hkept]
          exact .inl ⟨e, hin, hid, hreceived⟩
      · exact .inr hold

/-- In every run an event is there until it is ninety days old, whatever happens to it; and after each tick that could
delete none is more than an hour older. -/
theorem events_kept {m : Keeper} (hs : s.Started dates) {ls ks : List Label} (h : Trace (step dates) s ls m)
    (k : Trace (step dates) m ks t) :
    Throughout Bounded t.history ∧
      ∀ row ∈ m.events.rows, ts (t.clock - retentionDays * nanosPerDay) ≤ row.receivedAt → Stays row t.events := by
  have hfirst : (s.Gated ∧ s.Aged) ∧ Throughout Bounded s.history := by
    refine ⟨⟨hs.gated, ?_⟩, ?_⟩
    · intro last hlast
      rw [hs.gates] at hlast
      cases hlast
    · rw [hs.history]
      exact throughout_nil
  have hstep : ∀ u l v, ((u.Gated ∧ u.Aged) ∧ Throughout Bounded u.history) → step dates u l = some v →
      (v.Gated ∧ v.Aged) ∧ Throughout Bounded v.history := by
    intro u l v hu hstep
    have hmoves := moves hstep
    refine ⟨⟨gated_step hu.1.1 hmoves, aged_step hu.1.1 hu.1.2 hmoves⟩, ?_⟩
    exact history_step (fun _ => trivial) (fun p haged _ => haged.bounded p) hu.1.2 hu.2 hmoves
  have hmiddle := h.invariant hstep hfirst
  refine ⟨(k.invariant hstep hmiddle).2, ?_⟩
  intro row hin hyoung
  have hrow : t.Gated ∧ (Stays row t.events ∨ row.receivedAt < ts (t.clock - retentionDays * nanosPerDay)) := by
    refine @Trace.invariant _ _ _ (fun u => u.Gated ∧ (Stays row u.events ∨
      row.receivedAt < ts (u.clock - retentionDays * nanosPerDay))) ?_ m t ks k ⟨hmiddle.1.1, .inl ⟨row, hin, rfl, rfl⟩⟩
    intro u l v hu hstep
    have hmoves := moves hstep
    exact ⟨gated_step hu.1 hmoves, stays_step hu.1 hu.2 hmoves⟩
  exact hrow.2.resolve_right (not_lt.mpr hyoung)

theorem events_kept_september :
    Stays septemberEvent (replay (step septemberDates) septemberKeeper septemberLabels).events :=
  (events_kept septemberKeeper_started (.nil _) (trace_replay (by decide +kernel))).2 septemberEvent
    List.mem_cons_self (by decide +kernel)

end Keeper

end Quantframe.Housekeeping
