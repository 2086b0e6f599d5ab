import Quantframe.Lib.Log
import Quantframe.Market.Callers

/-!
# The breaker ladder

Each step of the limiter does one of five things to what the ladder reads: the breaker, the count of
transport errors, the last trip and the number of trips.
-/

namespace Quantframe.Market
open Quantframe.Lib

/-- What the ladder reads of a state. -/
structure Rungs where
  breaker : Option Open
  errors : Nat
  lastTripAt : Option (Instant × Nat)
  tripsTotal : Nat

namespace State

def rungs (s : State) : Rungs := ⟨s.breaker, s.transportErrorsInRow, s.lastTripAt, s.tripsTotal⟩

/-- The step from one state to another at `now`, with the outcome that it reports if any. -/
inductive Climb (s : State) (now : Instant) : Option Outcome → State → Prop
  | stay {outcome : Option Outcome} {t : State} (hopen : s.breaker = none → outcome = none)
      (h : t.rungs = s.rungs) : Climb s now outcome t
  | probed {o : Open} {t : State} (ho : s.breaker = some o) (hdue : o.probe = none)
      (h : t.rungs = { s.rungs with breaker := some { o with probe := some now } }) : Climb s now none t
  | closed {t : State} (hprobing : ∀ o, s.breaker = some o → o.probe ≠ none)
      (h : t.rungs = { s.rungs with breaker := none, errors := 0 }) : Climb s now (some .ok) t
  | counted {t : State} (hclosed : s.breaker = none)
      (hfew : s.transportErrorsInRow + 1 < tripAfterTransportErrors)
      (h : t.rungs = { s.rungs with errors := s.transportErrorsInRow + 1 }) :
      Climb s now (some .transportError) t
  | tripped {outcome : Option Outcome} {t u : State} {c : Clock} {reason : String} (hnow : c.now = now)
      (hcause : (∃ o, s.breaker = some o ∧ o.probe ≠ none) ∨
        s.breaker = none ∧ (outcome = some .challenge ∨ outcome = some .rateLimited ∨
          outcome = some .transportError ∧ tripAfterTransportErrors ≤ s.transportErrorsInRow + 1))
      (hu : u.breaker = s.breaker ∧ u.lastTripAt = s.lastTripAt ∧ u.tripsTotal = s.tripsTotal)
      (h : t.rungs = (u.trip c reason).rungs) : Climb s now outcome t

variable (s : State) (c : Clock)

/-- What expires a lost probe either does nothing or fails the probe. -/
theorem climb_of_expire {outcome : Option Outcome} {t : State}
    (hopen : (s.expireLostProbe c).breaker = none → outcome = none)
    (h : t.rungs = (s.expireLostProbe c).rungs) : Climb s c.now outcome t := by
  rcases expireLostProbe_cases s c with ⟨he, -⟩ | ⟨o, p, reason, ho, hp, -, he⟩
  · rw [he] at hopen h
    exact .stay hopen h
  · refine .tripped rfl (.inl ⟨o, ho, ?_⟩) ⟨rfl, rfl, rfl⟩ (he ▸ h)
    rw [hp]
    exact Option.some_ne_none p

/-- A report while the breaker is open and no probe is out changes one counter. -/
theorem report_straggler {o : Open} (ho : (s.expireLostProbe c).breaker = some o) (hp : o.probe = none)
    (outcome : Outcome) :
    (s.report outcome c).1 = { s.expireLostProbe c with
      rateLimitedTotal := (s.expireLostProbe c).rateLimitedTotal + if outcome = .rateLimited then 1 else 0 } := by
  unfold report
  generalize s.expireLostProbe c = e at ho ⊢
  obtain ⟨rate, interval, lastGrant, waiting, granted, limited, breaker, errors, lastTrip, trips⟩ := e
  obtain rfl : breaker = some o := ho
  cases outcome <;> simp [hp]

/-- A report that finds the breaker closed or probing. -/
theorem climb_of_answer (he : s.expireLostProbe c = s) (hprobing : ∀ o, s.breaker = some o → o.probe ≠ none)
    (outcome : Outcome) : Climb s c.now (some outcome) (s.report outcome c).1 := by
  unfold report
  rw [he]
  cases hb : s.breaker with
  | none =>
      cases outcome with
      | ok => exact .closed hprobing (by simp [rungs, hb])
      | challenge =>
          exact .tripped (u := s) rfl (.inr ⟨hb, .inl rfl⟩) ⟨rfl, rfl, rfl⟩ (by
            simp [hb]
            rfl)
      | rateLimited =>
          exact .tripped (u := { s with rateLimitedTotal := s.rateLimitedTotal + 1 }) rfl
            (.inr ⟨hb, .inr (.inl rfl)⟩) ⟨rfl, rfl, rfl⟩ (by
            simp [hb]
            rfl)
      | transportError =>
          by_cases hmany : tripAfterTransportErrors ≤ s.transportErrorsInRow + 1
          · exact .tripped (u := { s with transportErrorsInRow := s.transportErrorsInRow + 1 }) rfl
              (.inr ⟨hb, .inr (.inr ⟨rfl, hmany⟩)⟩) ⟨rfl, rfl, rfl⟩ (by
              simp [hb, hmany]
              rfl)
          · refine .counted hb (Nat.lt_of_not_le hmany) ?_
            simp [rungs, hb, hmany]
  | some o =>
      obtain ⟨p, hp⟩ := Option.ne_none_iff_exists'.mp (hprobing o hb)
      have hcause : ∃ o, s.breaker = some o ∧ o.probe ≠ none := ⟨o, hb, hprobing o hb⟩
      cases outcome with
      | ok => exact .closed hprobing (by simp [rungs, hb, hp])
      | challenge =>
          exact .tripped (u := s) rfl (.inl hcause) ⟨rfl, rfl, rfl⟩ (by
            simp [hb, hp]
            rfl)
      | rateLimited =>
          exact .tripped (u := { s with rateLimitedTotal := s.rateLimitedTotal + 1 }) rfl (.inl hcause)
            ⟨rfl, rfl, rfl⟩ (by
            simp [hb, hp]
            rfl)
      | transportError =>
          exact .tripped (u := s) rfl (.inl hcause) ⟨rfl, rfl, rfl⟩ (by
            simp [hb, hp]
            rfl)

theorem climb_of_report (outcome : Outcome) : Climb s c.now (some outcome) (s.report outcome c).1 := by
  by_cases hout : ∀ o, (s.expireLostProbe c).breaker = some o → o.probe ≠ none
  · have he := expireLostProbe_eq_self s c hout
    rw [he] at hout
    exact climb_of_answer s c he hout outcome
  · simp only [not_forall, not_not] at hout
    obtain ⟨o, ho, hp⟩ := hout
    refine climb_of_expire s c (fun hnone => ?_) ?_
    · rw [ho] at hnone
      cases hnone
    · rw [report_straggler s c ho hp]
      rfl

end State

/-- The outcome that a step reports. -/
def Label.outcome : Label → Option Outcome
  | .report outcome _ => some outcome
  | .enter _ _ | .enable _ | .lock _ _ | .wake _ _ | .cancel _ | .dropGuard _ | .notifyWaiters
  | .setRatePerSecond _ | .isBlocked _ | .snapshot _ => none

namespace Limiter

theorem step_climb {s t : Limiter} {l : Label} (h : s.step l = some t) :
    s.state.Climb t.clock l.outcome t.state := by
  cases step_cases h with
  | enter | enable | wake | cancel | dropGuard | notifyWaiters | setRatePerSecond => exact .stay (fun _ => rfl) rfl
  | refuse hc hi hv =>
      cases State.slot_not_granted s.state _ hv (by simp)
      exact State.climb_of_expire s.state _ (fun _ => rfl) rfl
  | park hc hi hv =>
      cases State.slot_not_granted s.state _ hv (by simp)
      exact State.climb_of_expire s.state _ (fun _ => rfl) rfl
  | @grant i c lane failFast n state hc hi hv =>
      obtain ⟨-, -, -, hu, hpass⟩ := State.slot_granted s.state c hv
      subst hu
      rcases hpass with ⟨hp, hb⟩ | ⟨o, hp, hb, hnone, -⟩
      · exact .stay (fun _ => rfl) (by simp only [State.grant, State.rungs, hp])
      · exact .probed hb hnone (by simp only [State.grant, State.rungs, hp, hb, Option.map_some])
  | @report c outcome hc => exact State.climb_of_report s.state c outcome
  | isBlocked hc | snapshot hc => exact State.climb_of_expire s.state _ (fun _ => rfl) rfl

/-! ### A limiter under watch -/

/-- A period that was opened: when, at which step and until when, and whether a probe had failed. -/
structure Trip where
  time : Instant
  step : Nat
  «until» : Instant
  probing : Bool

/-- The period that a step opens. -/
def opens (s t : Limiter) : Option Open :=
  t.state.breaker.filter fun o => o.probe.isNone && decide (s.state.breaker ≠ some o)

structure Watched where
  limiter : Limiter
  trips : List Trip
  /-- The last first. -/
  outcomes : List Outcome

def Watched.new (ratePerSecond : Rat) : Watched := ⟨.new ratePerSecond, [], []⟩

def watch (w : Watched) (l : Label) : Option Watched :=
  (w.limiter.step l).map fun t =>
    { limiter := t
      trips := w.trips ++ ((opens w.limiter t).map fun o =>
        ⟨t.clock, o.step, o.until, (w.limiter.state.breaker.bind Open.probe).isSome⟩).toList
      outcomes := l.outcome.toList ++ w.outcomes }

/-- Transport errors with no other outcome since. -/
def consecutive (outcomes : List Outcome) : Nat :=
  (outcomes.takeWhile fun outcome => decide (outcome = .transportError)).length

/-- The period is the one of its step, and the step is the next one after a failed probe or within a day of
the trip before. -/
structure Trip.Lawful (earlier : List Trip) (trip : Trip) : Prop where
  period : trip.until = trip.time + breakerSteps (min trip.step 2)
  step : trip.step = match earlier.getLast? with
    | none => 0
    | some last => if trip.probing = true ∨ trip.time < last.time + ladderResetAfter then last.step + 1 else 0

structure Climbed (w : Watched) : Prop where
  lawful : Throughout Trip.Lawful w.trips
  total : w.limiter.state.tripsTotal = w.trips.length
  last : w.limiter.state.lastTripAt = w.trips.getLast?.map fun trip => (trip.time, trip.step)
  opened : ∀ o, w.limiter.state.breaker = some o → ∃ trip, w.trips.getLast? = some trip ∧ trip.step = o.step
  closed : w.limiter.state.breaker = none →
    w.limiter.state.transportErrorsInRow = consecutive w.outcomes ∧
      w.limiter.state.transportErrorsInRow < tripAfterTransportErrors

/-- Every run can be watched. -/
theorem watched_of_trace {w : Watched} {ls : List Label} {t : Limiter} (run : Trace step w.limiter ls t) :
    ∃ v, Trace watch w ls v ∧ v.limiter = t := by
  induction ls generalizing w with
  | nil =>
      cases run
      exact ⟨w, .nil w, rfl⟩
  | cons l ls ih =>
      cases run with
      | @cons _ m _ _ _ first rest =>
          obtain ⟨u, hwatch, rfl⟩ : ∃ u, watch w l = some u ∧ u.limiter = m :=
            ⟨_, by rw [watch, first, Option.map_some], rfl⟩
          obtain ⟨v, hrun, hv⟩ := ih rest
          exact ⟨v, .cons hwatch hrun, hv⟩

theorem watch_cases {w v : Watched} {l : Label} (h : watch w l = some v) :
    w.limiter.step l = some v.limiter ∧ v.outcomes = l.outcome.toList ++ w.outcomes ∧
      v.trips = w.trips ++ ((opens w.limiter v.limiter).map fun o =>
        ⟨v.limiter.clock, o.step, o.until, (w.limiter.state.breaker.bind Open.probe).isSome⟩).toList := by
  obtain ⟨t, hstep, rfl⟩ := Option.map_eq_some_iff.mp h
  exact ⟨hstep, rfl, rfl⟩

theorem opens_same {s t : Limiter} (h : t.state.breaker = s.state.breaker) : opens s t = none := by
  rw [opens, h]
  cases hb : s.state.breaker with
  | none => rfl
  | some o => simp

theorem consecutive_error (outcomes : List Outcome) :
    consecutive (.transportError :: outcomes) = consecutive outcomes + 1 := by simp [consecutive]

/-- A step that opens no period. -/
theorem Climbed.unopened {w v : Watched} (h : Climbed w) (hopens : opens w.limiter v.limiter = none)
    (htrips : v.trips = w.trips ++ ((opens w.limiter v.limiter).map fun o =>
        (⟨v.limiter.clock, o.step, o.until, (w.limiter.state.breaker.bind Open.probe).isSome⟩ : Trip)).toList)
    (htotal : v.limiter.state.tripsTotal = w.limiter.state.tripsTotal)
    (hlast : v.limiter.state.lastTripAt = w.limiter.state.lastTripAt)
    (hopened : ∀ o, v.limiter.state.breaker = some o → ∃ o', w.limiter.state.breaker = some o' ∧ o'.step = o.step)
    (hclosed : v.limiter.state.breaker = none →
      v.limiter.state.transportErrorsInRow = consecutive v.outcomes ∧
        v.limiter.state.transportErrorsInRow < tripAfterTransportErrors) : Climbed v := by
  rw [hopens, Option.map_none, Option.toList_none, List.append_nil] at htrips
  refine ⟨htrips ▸ h.lawful, ?_, ?_, fun o ho => ?_, hclosed⟩
  · rw [htotal, htrips, h.total]
  · rw [hlast, htrips, h.last]
  · obtain ⟨o', ho', hstep⟩ := hopened o ho
    obtain ⟨trip, hlast, htrip⟩ := h.opened o' ho'
    exact ⟨trip, htrips ▸ hlast, htrip.trans hstep⟩

theorem Climbed.nextStep {w : Watched} (h : Climbed w) {u : State} {c : Clock}
    (hbreaker : u.breaker = w.limiter.state.breaker) (hlast : u.lastTripAt = w.limiter.state.lastTripAt)
    (hprobing : ∀ o, w.limiter.state.breaker = some o → o.probe ≠ none) :
    u.nextStep c = match w.trips.getLast? with
      | none => 0
      | some last =>
          if (w.limiter.state.breaker.bind Open.probe).isSome = true ∨ c.now < last.time + ladderResetAfter then
            last.step + 1
          else 0 := by
  rw [State.nextStep, hbreaker, hlast, h.last]
  cases hb : w.limiter.state.breaker with
  | some o =>
      obtain ⟨trip, hlast, hstep⟩ := h.opened o hb
      obtain ⟨p, hp⟩ := Option.ne_none_iff_exists'.mp (hprobing o hb)
      simp [hlast, hstep, hp]
  | none =>
      cases w.trips.getLast? with
      | none => rfl
      | some last => simp

/-- A step that trips the breaker. -/
theorem Climbed.trip {w v : Watched} (h : Climbed w) {u : State} {c : Clock} {reason : String}
    (hnow : c.now = v.limiter.clock) (hprobing : ∀ o, w.limiter.state.breaker = some o → o.probe ≠ none)
    (hu : u.breaker = w.limiter.state.breaker ∧ u.lastTripAt = w.limiter.state.lastTripAt ∧
      u.tripsTotal = w.limiter.state.tripsTotal)
    (hr : v.limiter.state.rungs = (u.trip c reason).rungs)
    (htrips : v.trips = w.trips ++ ((opens w.limiter v.limiter).map fun o =>
        (⟨v.limiter.clock, o.step, o.until, (w.limiter.state.breaker.bind Open.probe).isSome⟩ : Trip)).toList) :
    Climbed v := by
  obtain ⟨hbreaker, hlast, htotal⟩ := hu
  have hb : v.limiter.state.breaker = (u.trip c reason).breaker := congrArg Rungs.breaker hr
  have hopens : opens w.limiter v.limiter = (u.trip c reason).breaker := by
    rw [opens, hb, State.trip, Option.filter_some_pos]
    simp only [Option.isNone_none, Bool.true_and, decide_eq_true_eq]
    intro hsame
    exact hprobing _ hsame rfl
  rw [hopens, State.trip, Option.map_some, Option.toList_some] at htrips
  have hlawful : Trip.Lawful w.trips ⟨v.limiter.clock, u.nextStep c, c.now + breakerSteps (min (u.nextStep c) 2),
      (w.limiter.state.breaker.bind Open.probe).isSome⟩ := by
    refine ⟨by rw [hnow], ?_⟩
    rw [← hnow]
    exact h.nextStep hbreaker hlast hprobing
  refine ⟨?_, ?_, ?_, fun o ho => ?_, fun hnone => ?_⟩
  · rw [htrips]
    exact throughout_concat.mpr ⟨h.lawful, hlawful⟩
  · have hcount : v.limiter.state.tripsTotal = u.tripsTotal + 1 := congrArg Rungs.tripsTotal hr
    rw [hcount, htotal, htrips, h.total, List.length_append, List.length_singleton]
  · have hat : v.limiter.state.lastTripAt = some (c.now, u.nextStep c) := congrArg Rungs.lastTripAt hr
    rw [hat, htrips, List.getLast?_concat, Option.map_some, hnow]
  · cases hb.symm.trans ho
    rw [htrips]
    exact ⟨_, List.getLast?_concat, rfl⟩
  · rw [hb] at hnone
    cases hnone

theorem Climbed.step {w v : Watched} {l : Label} (h : Climbed w) (hwatch : watch w l = some v) : Climbed v := by
  obtain ⟨hstep, houtcomes, htrips⟩ := watch_cases hwatch
  have hclimb := step_climb hstep
  generalize hout : l.outcome = outcome at hclimb houtcomes
  cases hclimb with
  | stay hopen hr =>
      have hb : v.limiter.state.breaker = w.limiter.state.breaker := congrArg Rungs.breaker hr
      have he : v.limiter.state.transportErrorsInRow = w.limiter.state.transportErrorsInRow := congrArg Rungs.errors hr
      refine h.unopened (opens_same hb) htrips (congrArg Rungs.tripsTotal hr) (congrArg Rungs.lastTripAt hr)
        (fun o ho => ⟨o, hb ▸ ho, rfl⟩) fun hnone => ?_
      rw [hb] at hnone
      rw [houtcomes, hopen hnone, he]
      exact h.closed hnone
  | @probed o _ ho hdue hr =>
      have hb : v.limiter.state.breaker = some { o with probe := some v.limiter.clock } := congrArg Rungs.breaker hr
      refine h.unopened ?_ htrips (congrArg Rungs.tripsTotal hr) (congrArg Rungs.lastTripAt hr) ?_ ?_
      · rw [opens, hb]
        rfl
      · rintro o' ho'
        cases hb.symm.trans ho'
        exact ⟨o, ho, rfl⟩
      · intro hnone
        rw [hb] at hnone
        cases hnone
  | closed hprobing hr =>
      have hb : v.limiter.state.breaker = none := congrArg Rungs.breaker hr
      have he : v.limiter.state.transportErrorsInRow = 0 := congrArg Rungs.errors hr
      refine h.unopened ?_ htrips (congrArg Rungs.tripsTotal hr) (congrArg Rungs.lastTripAt hr) ?_ ?_
      · rw [opens, hb]
        rfl
      · rintro o ho
        rw [hb] at ho
        cases ho
      · intro _
        rw [he, houtcomes]
        exact ⟨rfl, by decide⟩
  | counted hclosed hfew hr =>
      have hb : v.limiter.state.breaker = w.limiter.state.breaker := congrArg Rungs.breaker hr
      have he : v.limiter.state.transportErrorsInRow = w.limiter.state.transportErrorsInRow + 1 :=
        congrArg Rungs.errors hr
      refine h.unopened (opens_same hb) htrips (congrArg Rungs.tripsTotal hr) (congrArg Rungs.lastTripAt hr)
        (fun o ho => ⟨o, hb ▸ ho, rfl⟩) fun _ => ?_
      rw [he, houtcomes, (h.closed hclosed).1]
      exact ⟨(consecutive_error w.outcomes).symm, (h.closed hclosed).1 ▸ hfew⟩
  | tripped hnow hcause hu hr =>
      refine h.trip hnow (fun o ho => ?_) hu hr htrips
      rcases hcause with ⟨o', ho', hp⟩ | ⟨hnone, -⟩
      · cases ho'.symm.trans ho
        exact hp
      · cases hnone.symm.trans ho

theorem climbed_new (ratePerSecond : Rat) : Climbed (.new ratePerSecond) where
  lawful := throughout_nil
  total := rfl
  last := rfl
  opened o ho := by cases ho
  closed _ := ⟨rfl, Nat.zero_lt_succ 4⟩

theorem run_climbed {ratePerSecond : Rat} {ls : List Label} {w : Watched}
    (run : Trace watch (.new ratePerSecond) ls w) : Climbed w :=
  run.invariant (fun _ _ _ h first => h.step first) (climbed_new ratePerSecond)

/-- A transport error trips a closed breaker if and only if it is the fifth with no other outcome between. -/
theorem Climbed.transportError {w v : Watched} {c : Clock} (h : Climbed w)
    (hwatch : watch w (.report .transportError c) = some v) (hclosed : w.limiter.state.breaker = none) :
    v.limiter.state.breaker ≠ none ↔ consecutive v.outcomes = tripAfterTransportErrors := by
  obtain ⟨hstep, houtcomes, -⟩ := watch_cases hwatch
  obtain ⟨herrors, hfew⟩ := h.closed hclosed
  have hcount : consecutive v.outcomes = w.limiter.state.transportErrorsInRow + 1 := by
    rw [houtcomes, herrors]
    exact consecutive_error w.outcomes
  rw [hcount]
  cases step_climb hstep with
  | stay hopen => cases hopen hclosed
  | counted _ hless hr =>
      have hb : v.limiter.state.breaker = w.limiter.state.breaker := congrArg Rungs.breaker hr
      rw [hb, hclosed]
      exact ⟨fun hne => absurd rfl hne, fun heq => absurd heq (Nat.ne_of_lt hless)⟩
  | tripped _ hcause _ hr =>
      have hb : v.limiter.state.breaker = some _ := congrArg Rungs.breaker hr
      rw [hb]
      refine ⟨fun _ => ?_, fun _ => Option.some_ne_none _⟩
      rcases hcause with ⟨o, ho, -⟩ | ⟨-, hc | hc | ⟨-, hmany⟩⟩
      · cases hclosed.symm.trans ho
      · cases hc
      · cases hc
      · exact Nat.le_antisymm hfew hmany

/-- Over every run: each trip opens the period of its step, and the steps climb as they should; the trips are
those that the total counts; the fifth transport error in a row trips a closed breaker, and no other does; a
report while the breaker is open without a probe changes one counter. -/
theorem breaker_ladder {ratePerSecond : Rat} {ls : List Label} {w : Watched}
    (run : Trace watch (.new ratePerSecond) ls w) :
    Throughout Trip.Lawful w.trips ∧ w.limiter.state.tripsTotal = w.trips.length ∧
    (∀ c v, watch w (.report .transportError c) = some v → w.limiter.state.breaker = none →
      (v.limiter.state.breaker ≠ none ↔ consecutive v.outcomes = tripAfterTransportErrors)) ∧
    ∀ outcome c v o, watch w (.report outcome c) = some v →
      (w.limiter.state.expireLostProbe c).breaker = some o → o.probe = none →
      v.limiter.state = { w.limiter.state.expireLostProbe c with
        rateLimitedTotal := (w.limiter.state.expireLostProbe c).rateLimitedTotal +
          if outcome = .rateLimited then 1 else 0 } := by
  have h := run_climbed run
  refine ⟨h.lawful, h.total, fun c v hwatch hclosed => h.transportError hwatch hclosed, ?_⟩
  intro outcome c v o hwatch ho hp
  obtain ⟨hstep, -⟩ := watch_cases hwatch
  have hreport := step_cases hstep
  generalize v.limiter = t at hreport ⊢
  cases hreport with
  | report _ _ => exact State.report_straggler _ c ho hp outcome

/-- A challenge, a probe that is lost, and a challenge to the next probe. -/
theorem breaker_ladder_climbs :
    Throughout Trip.Lawful (replay watch (.new (5 / 2)) [.report .challenge ⟨0, 0⟩, .enter .cold false, .enable 0,
      .lock 0 ⟨fromSecs 900, 0⟩, .snapshot ⟨fromSecs 960, 0⟩, .enter .hot false, .enable 1,
      .lock 1 ⟨fromSecs 4560, 0⟩, .report .challenge ⟨fromSecs 4561, 0⟩]).trips ∧
    (replay watch (.new (5 / 2)) [.report .challenge ⟨0, 0⟩, .enter .cold false, .enable 0,
      .lock 0 ⟨fromSecs 900, 0⟩, .snapshot ⟨fromSecs 960, 0⟩, .enter .hot false, .enable 1,
      .lock 1 ⟨fromSecs 4560, 0⟩, .report .challenge ⟨fromSecs 4561, 0⟩]).trips.map Trip.step = [0, 1, 2] :=
  ⟨(breaker_ladder (trace_replay (by decide +kernel))).1, by decide +kernel⟩

end Limiter

end Quantframe.Market
