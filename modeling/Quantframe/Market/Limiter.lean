import Mathlib.Logic.Function.Basic

/-!
# The market limiter: one request budget, three lanes and a breaker

Everything here is what the code computes while it holds the limiter's lock. Instants and
durations are whole nanoseconds; a rate is an exact rational. `Clock` is one reading of the
monotonic and the wall clock, taken inside the lock.
-/

namespace Quantframe.Market

abbrev Instant := Nat
abbrev Duration := Nat
/-- UTC time in nanoseconds. -/
abbrev DateTime := Int

def fromSecs (n : Nat) : Duration := n * 1000000000

structure Clock where
  now : Instant
  utc : DateTime
  deriving DecidableEq, Repr

def defaultRatePerSecond : Rat := 5 / 2
def rateRangeStart : Rat := 1 / 5
def rateRangeEnd : Rat := 29 / 10
/-- Breaker periods; the last one repeats. -/
def breakerSteps (i : Nat) : Duration :=
  match i with
  | 0 => fromSecs (15 * 60)
  | 1 => fromSecs (60 * 60)
  | _ => fromSecs (4 * 60 * 60)
def tripAfterTransportErrors : Nat := 5
/-- A probe that reports nothing within this long counts as failed. -/
def probeTimeout : Duration := fromSecs 60
/-- The ladder starts again at its first period after this long without a trip. -/
def ladderResetAfter : Duration := fromSecs (24 * 60 * 60)

inductive Lane where
  | trader
  | hot
  | cold
  deriving DecidableEq, Repr

def Lane.index : Lane → Nat
  | .trader => 0
  | .hot => 1
  | .cold => 2

/-- The lanes below `index` in the waiting array. -/
def Lane.higher : Lane → List Lane
  | .trader => []
  | .hot => [.trader]
  | .cold => [.trader, .hot]

theorem Lane.mem_higher {l k : Lane} : k ∈ l.higher ↔ k.index < l.index := by
  cases l <;> cases k <;> simp [Lane.higher, Lane.index]

/-- What a warframe.market response, or the lack of one, tells the breaker. -/
inductive Outcome where
  | ok
  | challenge
  | rateLimited
  | transportError
  deriving DecidableEq, Repr

structure BreakerOpen where
  «until» : DateTime
  reason : String
  deriving DecidableEq, Repr

structure Open where
  reason : String
  openedAt : DateTime
  «until» : Instant
  step : Nat
  /-- When the probe was granted; `none` until the period ends. -/
  probe : Option Instant
  deriving DecidableEq, Repr

structure State where
  ratePerSecond : Rat
  interval : Duration
  lastGrant : Option Instant
  waiting : Lane → Nat
  granted : Lane → Nat
  rateLimitedTotal : Nat
  breaker : Option Open
  transportErrorsInRow : Nat
  lastTripAt : Option (Instant × Nat)
  tripsTotal : Nat

/-- What the breaker lets a request do right now. -/
inductive Pass where
  | yes
  | probe
  | blocked («until» : Instant) (reason : String)

/-- Rounded to the nearest nanosecond, and never negative. -/
def fromSecsF64 (q : Rat) : Duration := (q * 1000000000 + 1 / 2).floor.toNat

def toUtc (t : Instant) (c : Clock) : DateTime := c.utc + ((t - c.now : Nat) : Int)

def State.new (ratePerSecond : Rat) : State where
  ratePerSecond := ratePerSecond
  interval := fromSecsF64 (1 / ratePerSecond)
  lastGrant := none
  waiting := fun _ => 0
  granted := fun _ => 0
  rateLimitedTotal := 0
  breaker := none
  transportErrorsInRow := 0
  lastTripAt := none
  tripsTotal := 0

namespace State

/-- The ladder index of the next period. -/
def nextStep (s : State) (c : Clock) : Nat :=
  match s.breaker, s.lastTripAt with
  | some o, _ => o.step + 1
  | none, some (t, step) => if c.now < t + ladderResetAfter then step + 1 else 0
  | none, none => 0

/-- Opens the breaker, or reopens it one step higher when it is already open. -/
def trip (s : State) (c : Clock) (reason : String) : State :=
  let step := s.nextStep c
  let period := breakerSteps (min step 2)
  let openedAt := s.breaker.elim c.utc Open.openedAt
  { s with
    breaker := some { reason, openedAt, «until» := c.now + period, step, probe := none }
    lastTripAt := some (c.now, step)
    transportErrorsInRow := 0
    tripsTotal := s.tripsTotal + 1 }

def expireLostProbe (s : State) (c : Clock) : State :=
  match s.breaker.bind Open.probe with
  | some t =>
      if t + probeTimeout ≤ c.now then s.trip c "the probe got no response within 60 s" else s
  | none => s

def pass (s : State) (c : Clock) : Pass × State :=
  let s := s.expireLostProbe c
  match s.breaker with
  | none => (.yes, s)
  | some o =>
      match o.probe with
      | none => if o.until ≤ c.now then (.probe, s) else (.blocked o.until o.reason, s)
      | some t => (.blocked (t + probeTimeout) o.reason, s)

end State

/-- How one pass through the locked section of `wait_for_slot` ends. -/
inductive Verdict where
  | refused (e : BreakerOpen)
  | park (wakeAt : Option Instant)
  | granted
  deriving DecidableEq, Repr

namespace State

/-- `waiting[lane] += 1`, the first thing `wait_for_slot` does. -/
def enter (s : State) (lane : Lane) : State :=
  { s with waiting := Function.update s.waiting lane (s.waiting lane + 1) }

/-- The decrement in `Waiting::drop`. -/
def leave (s : State) (lane : Lane) : State :=
  { s with waiting := Function.update s.waiting lane (s.waiting lane - 1) }

def grant (s : State) (lane : Lane) (pass : Pass) (now : Instant) : State :=
  let breaker := match pass with
    | .probe => s.breaker.map fun o => { o with probe := some now }
    | _ => s.breaker
  { s with
    breaker
    lastGrant := some now
    waiting := Function.update s.waiting lane (s.waiting lane - 1)
    granted := Function.update s.granted lane (s.granted lane + 1) }

/-- When the next slot opens, ignoring the breaker. -/
def nextSlot (s : State) (now : Instant) : Instant :=
  s.lastGrant.elim now fun t => t + s.interval

/-- When a request that `pass` lets through could be granted at the earliest. -/
def ready (s : State) (pass : Pass) (now : Instant) : Instant :=
  match pass with
  | .blocked t _ => max t (s.nextSlot now)
  | _ => s.nextSlot now

/-- The locked section of `wait_for_slot`. -/
def slot (s : State) (lane : Lane) (failFast : Bool) (c : Clock) : Verdict × State :=
  let (pass, s) := s.pass c
  match failFast, pass with
  | true, .blocked t reason => (.refused { «until» := toUtc t c, reason }, s)
  | _, _ =>
      if lane.higher.any fun l => 0 < s.waiting l then (.park none, s)
      else
        let ready := s.ready pass c.now
        if ready ≤ c.now then (.granted, s.grant lane pass c.now) else (.park (some ready), s)

/-- `Limiter::report`; the flag says whether control reaches its `notify_waiters`. -/
def report (s : State) (outcome : Outcome) (c : Clock) : State × Bool :=
  let s := s.expireLostProbe c
  let s := if outcome = .rateLimited then { s with rateLimitedTotal := s.rateLimitedTotal + 1 } else s
  let probing := (s.breaker.bind Open.probe).isSome
  if s.breaker.isSome && !probing then (s, false)
  else
    match outcome with
    | .ok => ({ s with transportErrorsInRow := 0, breaker := none }, true)
    | .challenge => (s.trip c "Cloudflare challenge", true)
    | .rateLimited => (s.trip c "HTTP 429 rate limited", true)
    | .transportError =>
        if probing then (s.trip c "the probe failed with a transport error", true)
        else
          let s := { s with transportErrorsInRow := s.transportErrorsInRow + 1 }
          if tripAfterTransportErrors ≤ s.transportErrorsInRow then
            (s.trip c (toString tripAfterTransportErrors ++ " transport errors in a row"), true)
          else (s, true)

def clampRate (rate : Rat) : Rat :=
  if rate < rateRangeStart then rateRangeStart
  else if rateRangeEnd < rate then rateRangeEnd
  else rate

def setRatePerSecond (s : State) (rate : Rat) : State :=
  let rate := clampRate rate
  { s with ratePerSecond := rate, interval := fromSecsF64 (1 / rate) }

def isBlocked (s : State) (c : Clock) : Bool × State :=
  let s := s.expireLostProbe c
  (s.breaker.isSome, s)

end State

structure BreakerSnapshot where
  state : String
  reason : Option String
  openedAt : Option DateTime
  «until» : Option DateTime
  step : Nat
  tripsTotal : Nat

structure LimiterSnapshot where
  grantedTrader : Nat
  grantedHot : Nat
  grantedCold : Nat
  waiting : Nat
  pausedMs : Nat
  rateLimitedTotal : Nat
  ratePerSecond : Rat
  breaker : BreakerSnapshot

def State.snapshot (s : State) (c : Clock) : LimiterSnapshot × State :=
  let s := s.expireLostProbe c
  let o := s.breaker
  let breaker : BreakerSnapshot :=
    { state := match o with
        | none => "closed"
        | some o => if o.probe.isSome then "probing" else "open"
      reason := o.map Open.reason
      openedAt := o.map Open.openedAt
      «until» := o.map fun o => toUtc o.until c
      step := s.lastTripAt.elim 0 Prod.snd
      tripsTotal := s.tripsTotal }
  ({ grantedTrader := s.granted .trader
     grantedHot := s.granted .hot
     grantedCold := s.granted .cold
     waiting := s.waiting .trader + s.waiting .hot + s.waiting .cold
     pausedMs := o.elim 0 fun o => (o.until - c.now) / 1000000
     rateLimitedTotal := s.rateLimitedTotal
     ratePerSecond := s.ratePerSecond
     breaker }, s)

/-! ### What one locked section can do -/

namespace State

variable (s : State) (c : Clock)

@[simp] theorem trip_waiting (reason : String) : (s.trip c reason).waiting = s.waiting := rfl
@[simp] theorem trip_interval (reason : String) : (s.trip c reason).interval = s.interval := rfl
@[simp] theorem trip_lastGrant (reason : String) : (s.trip c reason).lastGrant = s.lastGrant := rfl
@[simp] theorem trip_tripsTotal (reason : String) :
    (s.trip c reason).tripsTotal = s.tripsTotal + 1 := rfl

theorem breakerSteps_pos (i : Nat) : 0 < breakerSteps i := by
  unfold breakerSteps
  split <;> decide

/-- Every trip opens a fresh period without a probe that ends in the future. -/
theorem trip_breaker (reason : String) :
    ∃ o, (s.trip c reason).breaker = some o ∧ o.probe = none ∧ c.now < o.until := by
  refine ⟨_, rfl, rfl, ?_⟩
  exact Nat.lt_add_of_pos_right (breakerSteps_pos _)

/-- Either nothing expires, or a probe has been out too long and the breaker trips. -/
theorem expireLostProbe_cases :
    (s.expireLostProbe c = s ∧
      ∀ o t, s.breaker = some o → o.probe = some t → c.now < t + probeTimeout) ∨
    (∃ o t reason, s.breaker = some o ∧ o.probe = some t ∧ t + probeTimeout ≤ c.now ∧
      s.expireLostProbe c = s.trip c reason) := by
  unfold expireLostProbe
  cases hb : s.breaker with
  | none => exact .inl ⟨rfl, fun o t ho => by cases ho⟩
  | some o =>
      cases hp : o.probe with
      | none =>
          refine .inl ⟨by simp only [Option.bind_some, hp], ?_⟩
          intro o' t ho ht
          cases ho
          rw [hp] at ht
          cases ht
      | some t =>
          simp only [Option.bind_some, hp]
          by_cases hlate : t + probeTimeout ≤ c.now
          · exact .inr ⟨o, t, _, rfl, hp, hlate, if_pos hlate⟩
          · refine .inl ⟨if_neg hlate, ?_⟩
            intro o' t' ho ht
            cases ho
            rw [hp] at ht
            cases ht
            exact Nat.lt_of_not_le hlate

/-- A breaker that is not left open without a probe has not just been tripped. -/
theorem expireLostProbe_eq_self
    (h : ∀ o, (s.expireLostProbe c).breaker = some o → o.probe ≠ none) : s.expireLostProbe c = s := by
  rcases expireLostProbe_cases s c with ⟨he, -⟩ | ⟨_, _, reason, _, _, _, he⟩
  · exact he
  · obtain ⟨o, ho, hnone, -⟩ := trip_breaker s c reason
    exact absurd hnone (h o (by rw [he, ho]))

@[simp] theorem expireLostProbe_waiting : (s.expireLostProbe c).waiting = s.waiting := by
  rcases expireLostProbe_cases s c with ⟨h, _⟩ | ⟨_, _, _, _, _, _, h⟩ <;> rw [h]
  rfl

@[simp] theorem expireLostProbe_interval : (s.expireLostProbe c).interval = s.interval := by
  rcases expireLostProbe_cases s c with ⟨h, _⟩ | ⟨_, _, _, _, _, _, h⟩ <;> rw [h]
  rfl

@[simp] theorem expireLostProbe_lastGrant : (s.expireLostProbe c).lastGrant = s.lastGrant := by
  rcases expireLostProbe_cases s c with ⟨h, _⟩ | ⟨_, _, _, _, _, _, h⟩ <;> rw [h]
  rfl

theorem pass_snd : (s.pass c).2 = s.expireLostProbe c := by
  simp only [pass]
  split
  · rfl
  · split
    · split <;> rfl
    · rfl

/-- What `pass` says of the breaker it leaves behind. A block always ends in the future. -/
theorem pass_cases :
    ((s.pass c).1 = .yes ∧ (s.expireLostProbe c).breaker = none) ∨
    (∃ o, (s.pass c).1 = .probe ∧ (s.expireLostProbe c).breaker = some o ∧ o.probe = none ∧
      o.until ≤ c.now) ∨
    (∃ o t reason, (s.pass c).1 = .blocked t reason ∧ (s.expireLostProbe c).breaker = some o ∧
      c.now < t ∧ ((o.probe = none ∧ t = o.until) ∨
        ∃ p, o.probe = some p ∧ t = p + probeTimeout)) := by
  cases hb : (s.expireLostProbe c).breaker with
  | none => exact .inl ⟨by simp only [pass, hb], rfl⟩
  | some o =>
      cases hp : o.probe with
      | none =>
          by_cases hdue : o.until ≤ c.now
          · exact .inr (.inl ⟨o, by simp only [pass, hb, hp, if_pos hdue], rfl, hp, hdue⟩)
          · exact .inr (.inr ⟨o, o.until, o.reason, by simp only [pass, hb, hp, if_neg hdue], rfl,
              Nat.lt_of_not_le hdue, .inl ⟨hp, rfl⟩⟩)
      | some p =>
          refine .inr (.inr ⟨o, p + probeTimeout, o.reason, by simp only [pass, hb, hp], rfl, ?_,
            .inr ⟨p, hp, rfl⟩⟩)
          rcases expireLostProbe_cases s c with ⟨h, hlive⟩ | ⟨_, _, reason, _, _, _, h⟩
          · exact hlive o p (h ▸ hb) hp
          · obtain ⟨o', ho', hnone, -⟩ := trip_breaker s c reason
            rw [h, ho'] at hb
            cases hb
            rw [hnone] at hp
            cases hp

theorem higher_any {lane : Lane} :
    (lane.higher.any fun l => decide (0 < s.waiting l)) = true ↔ ∃ l ∈ lane.higher, 0 < s.waiting l := by
  simp only [List.any_eq_true, decide_eq_true_eq]

/-- The four ways out of the locked section. -/
theorem slot_cases (lane : Lane) (failFast : Bool) :
    (∃ e, (∃ t reason, (s.pass c).1 = .blocked t reason) ∧ failFast = true ∧
      s.slot lane failFast c = (.refused e, s.expireLostProbe c)) ∨
    ((∃ l ∈ lane.higher, 0 < s.waiting l) ∧
      s.slot lane failFast c = (.park none, s.expireLostProbe c)) ∨
    ((∀ l ∈ lane.higher, s.waiting l = 0) ∧
      c.now < (s.expireLostProbe c).ready (s.pass c).1 c.now ∧
      s.slot lane failFast c =
        (.park (some ((s.expireLostProbe c).ready (s.pass c).1 c.now)), s.expireLostProbe c)) ∨
    ((∀ l ∈ lane.higher, s.waiting l = 0) ∧
      (s.expireLostProbe c).ready (s.pass c).1 c.now ≤ c.now ∧
      s.slot lane failFast c =
        (.granted, (s.expireLostProbe c).grant lane (s.pass c).1 c.now)) := by
  have hsnd := pass_snd s c
  unfold slot
  cases hpass : s.pass c with
  | mk pass e =>
      rw [hpass] at hsnd
      simp only at hsnd ⊢
      rw [← expireLostProbe_waiting s c]
      subst hsnd
      split
      · exact .inl ⟨_, ⟨_, _, rfl⟩, rfl, rfl⟩
      · refine .inr ?_
        by_cases hany : ∃ l ∈ lane.higher, 0 < (s.expireLostProbe c).waiting l
        · exact .inl ⟨hany, if_pos ((higher_any _).mpr hany)⟩
        · have hnone : ∀ l ∈ lane.higher, (s.expireLostProbe c).waiting l = 0 := by
            intro l hl
            exact Nat.eq_zero_of_not_pos fun hpos => hany ⟨l, hl, hpos⟩
          rw [if_neg (mt (higher_any _).mp hany)]
          refine .inr ?_
          by_cases hready : (s.expireLostProbe c).ready pass c.now ≤ c.now
          · exact .inr ⟨hnone, hready, if_pos hready⟩
          · exact .inl ⟨hnone, Nat.lt_of_not_le hready, if_neg hready⟩

/-- A caller that is not granted leaves behind only an expired probe. -/
theorem slot_not_granted {u : State} {lane : Lane} {failFast : Bool} {v : Verdict}
    (h : s.slot lane failFast c = (v, u)) (hv : v ≠ .granted) : u = s.expireLostProbe c := by
  rcases slot_cases s c lane failFast with
    ⟨_, -, -, hs⟩ | ⟨-, hs⟩ | ⟨-, -, hs⟩ | ⟨-, -, hs⟩ <;> cases hs.symm.trans h
  · rfl
  · rfl
  · rfl
  · exact absurd rfl hv

/-- A block is never over at the moment it is found. -/
theorem blocked_not_ready {t : Instant} {reason : String} (h : (s.pass c).1 = .blocked t reason) :
    c.now < (s.expireLostProbe c).ready (s.pass c).1 c.now := by
  rcases pass_cases s c with ⟨hp, -⟩ | ⟨o, hp, -⟩ | ⟨o, t', reason', hp, -, hlt, -⟩
  · cases hp.symm.trans h
  · cases hp.symm.trans h
  · rw [hp]
    exact Nat.lt_of_lt_of_le hlt (Nat.le_max_left _ _)

/-- Everything a grant implies about the state it was made in. -/
theorem slot_granted {u : State} {lane : Lane} {failFast : Bool}
    (h : s.slot lane failFast c = (.granted, u)) :
    s.expireLostProbe c = s ∧ (∀ l ∈ lane.higher, s.waiting l = 0) ∧ s.nextSlot c.now ≤ c.now ∧
      u = s.grant lane (s.pass c).1 c.now ∧
      ((s.pass c).1 = .yes ∧ s.breaker = none ∨
        ∃ o, (s.pass c).1 = .probe ∧ s.breaker = some o ∧ o.probe = none ∧ o.until ≤ c.now) := by
  rcases slot_cases s c lane failFast with
    ⟨e, -, -, hv⟩ | ⟨-, hv⟩ | ⟨-, -, hv⟩ | ⟨hhigher, hready, hv⟩
  · cases hv.symm.trans h
  · cases hv.symm.trans h
  · cases hv.symm.trans h
  · cases hv.symm.trans h
    have hpass : (s.pass c).1 = .yes ∧ (s.expireLostProbe c).breaker = none ∨
        ∃ o, (s.pass c).1 = .probe ∧ (s.expireLostProbe c).breaker = some o ∧ o.probe = none ∧
          o.until ≤ c.now := by
      rcases pass_cases s c with hyes | hprobe | ⟨o, t, reason, hp, -⟩
      · exact .inl hyes
      · exact .inr hprobe
      · exact absurd hready (Nat.not_le_of_lt (blocked_not_ready s c hp))
    have hsame : s.expireLostProbe c = s := by
      rcases expireLostProbe_cases s c with ⟨he, -⟩ | ⟨_, _, reason, _, _, _, he⟩
      · exact he
      · obtain ⟨o', ho', -, huntil⟩ := trip_breaker s c reason
        rw [he, ho'] at hpass
        rcases hpass with ⟨-, hb⟩ | ⟨o, -, hb, -, hdue⟩
        · cases hb
        · cases hb
          exact absurd hdue (Nat.not_le_of_lt huntil)
    rw [hsame] at hpass hready ⊢
    refine ⟨rfl, hhigher, ?_, rfl, hpass⟩
    rcases hpass with ⟨hp, -⟩ | ⟨o, hp, -⟩
    · simpa only [ready, hp] using hready
    · simpa only [ready, hp] using hready

/-- What `report` writes before it decides: two counters. -/
def tally (e : State) (limited errors : Nat) : State :=
  { e with rateLimitedTotal := limited, transportErrorsInRow := errors }

@[simp] theorem tally_waiting (limited errors : Nat) : (s.tally limited errors).waiting = s.waiting := rfl
@[simp] theorem tally_interval (limited errors : Nat) : (s.tally limited errors).interval = s.interval := rfl
@[simp] theorem tally_lastGrant (limited errors : Nat) :
    (s.tally limited errors).lastGrant = s.lastGrant := rfl

/-- The four ways through `report`: a straggler, a close, a trip, a counted transport error. -/
theorem report_cases (outcome : Outcome) :
    ∃ limited errors,
      (∃ o, (s.expireLostProbe c).breaker = some o ∧ o.probe = none ∧
        s.report outcome c = ((s.expireLostProbe c).tally limited errors, false)) ∨
      ((∀ o, (s.expireLostProbe c).breaker = some o → o.probe ≠ none) ∧ outcome = .ok ∧
        s.report outcome c =
          ({ (s.expireLostProbe c).tally limited errors with breaker := none }, true)) ∨
      ((∀ o, (s.expireLostProbe c).breaker = some o → o.probe ≠ none) ∧ outcome ≠ .ok ∧
        ∃ reason, s.report outcome c =
          (((s.expireLostProbe c).tally limited errors).trip c reason, true)) ∨
      ((s.expireLostProbe c).breaker = none ∧ outcome ≠ .ok ∧
        s.report outcome c = ((s.expireLostProbe c).tally limited errors, true)) := by
  unfold report
  generalize s.expireLostProbe c = e
  obtain ⟨rate, interval, lastGrant, waiting, granted, limited, breaker, errors, lastTrip, trips⟩ := e
  cases breaker with
  | none =>
      have hout : ∀ o, (none : Option Open) = some o → o.probe ≠ none := by
        intro o ho
        cases ho
      cases outcome with
      | ok => exact ⟨limited, 0, .inr (.inl ⟨hout, rfl, rfl⟩)⟩
      | challenge => exact ⟨limited, errors, .inr (.inr (.inl ⟨hout, by simp, _, rfl⟩))⟩
      | rateLimited => exact ⟨limited + 1, errors, .inr (.inr (.inl ⟨hout, by simp, _, rfl⟩))⟩
      | transportError =>
          by_cases hmany : tripAfterTransportErrors ≤ errors + 1
          · exact ⟨limited, errors + 1, .inr (.inr (.inl ⟨hout, by simp, _, if_pos hmany⟩))⟩
          · exact ⟨limited, errors + 1, .inr (.inr (.inr ⟨rfl, by simp, if_neg hmany⟩))⟩
  | some o =>
      obtain ⟨reason, openedAt, «until», step, probe⟩ := o
      cases probe with
      | none =>
          cases outcome with
          | rateLimited => exact ⟨limited + 1, errors, .inl ⟨_, rfl, rfl, rfl⟩⟩
          | ok => exact ⟨limited, errors, .inl ⟨_, rfl, rfl, rfl⟩⟩
          | challenge => exact ⟨limited, errors, .inl ⟨_, rfl, rfl, rfl⟩⟩
          | transportError => exact ⟨limited, errors, .inl ⟨_, rfl, rfl, rfl⟩⟩
      | some t =>
          have hout : ∀ o, some (⟨reason, openedAt, «until», step, some t⟩ : Open) = some o →
              o.probe ≠ none := by
            intro o ho
            cases ho
            simp
          cases outcome with
          | ok => exact ⟨limited, 0, .inr (.inl ⟨hout, rfl, rfl⟩)⟩
          | challenge => exact ⟨limited, errors, .inr (.inr (.inl ⟨hout, by simp, _, rfl⟩))⟩
          | rateLimited => exact ⟨limited + 1, errors, .inr (.inr (.inl ⟨hout, by simp, _, rfl⟩))⟩
          | transportError => exact ⟨limited, errors, .inr (.inr (.inl ⟨hout, by simp, _, rfl⟩))⟩

/-- A report concerns the breaker only. -/
theorem report_frame (outcome : Outcome) :
    (s.report outcome c).1.waiting = s.waiting ∧ (s.report outcome c).1.interval = s.interval ∧
      (s.report outcome c).1.lastGrant = s.lastGrant := by
  obtain ⟨limited, errors, hr⟩ := report_cases s c outcome
  rcases hr with ⟨o, -, -, hr⟩ | ⟨-, -, hr⟩ | ⟨-, -, reason, hr⟩ | ⟨-, -, hr⟩ <;> rw [hr] <;> simp

end State

end Quantframe.Market
