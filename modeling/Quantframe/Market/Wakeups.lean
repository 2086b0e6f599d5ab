import Quantframe.Market.Priority

/-!
# No lost wake-up

A caller parked behind a higher lane has no timer, so every change that could make a parked caller
grantable earlier than its timer has to be followed by `notify_waiters`. The invariant below names
what is left to wake each parked caller.
-/

namespace Quantframe.Market
open Quantframe.Lib

namespace State

/-- When the breaker lets the next request pass; a probe that is out counts as its timeout. -/
def passesAt (s : State) : Instant :=
  match s.breaker with
  | none => 0
  | some o => o.probe.elim o.until fun t => t + probeTimeout

/-- The earliest time at which any caller could be granted, as things stand. -/
def earliest (s : State) : Instant := max s.passesAt (s.lastGrant.elim 0 fun t => t + s.interval)

theorem passesAt_of_some {s : State} {o : Open} (h : s.breaker = some o) :
    s.passesAt = o.probe.elim o.until fun t => t + probeTimeout := by
  simp only [passesAt, h]

theorem trip_passesAt (s : State) (c : Clock) (reason : String) :
    c.now < (s.trip c reason).passesAt := by
  obtain ⟨o, ho, hnone, huntil⟩ := trip_breaker s c reason
  rw [passesAt_of_some ho, hnone]
  exact huntil

/-- Expiring a lost probe only moves the earliest grant back. -/
theorem earliest_le_expireLostProbe (s : State) (c : Clock) :
    s.earliest ≤ (s.expireLostProbe c).earliest := by
  rcases expireLostProbe_cases s c with ⟨he, -⟩ | ⟨o, t, reason, ho, hp, hlate, he⟩
  · exact Nat.le_of_eq (congrArg earliest he.symm)
  · have hold : s.passesAt ≤ (s.trip c reason).passesAt := by
      rw [passesAt_of_some ho, hp]
      exact Nat.le_trans hlate (Nat.le_of_lt (trip_passesAt s c reason))
    rw [he]
    exact Nat.max_le.mpr ⟨Nat.le_trans hold (Nat.le_max_left _ _), Nat.le_max_right _ _⟩

/-- `ready` is the earliest possible grant, unless that is already past. -/
theorem ready_le (s : State) (c : Clock) :
    (s.expireLostProbe c).ready (s.pass c).1 c.now ≤ max c.now (s.expireLostProbe c).earliest := by
  have hslot : (s.expireLostProbe c).nextSlot c.now ≤ max c.now (s.expireLostProbe c).earliest := by
    unfold nextSlot earliest
    cases (s.expireLostProbe c).lastGrant with
    | none => exact Nat.le_max_left _ _
    | some t => exact Nat.le_trans (Nat.le_max_right _ _) (Nat.le_max_right _ _)
  rcases pass_cases s c with ⟨hp, -⟩ | ⟨o, hp, -⟩ | ⟨o, t, reason, hp, ho, -, ht⟩
  · simpa only [ready, hp] using hslot
  · simpa only [ready, hp] using hslot
  · have hpasses : (s.expireLostProbe c).passesAt = t := by
      rw [passesAt_of_some ho]
      rcases ht with ⟨hnone, rfl⟩ | ⟨p, hsome, rfl⟩
      · rw [hnone]
        rfl
      · rw [hsome]
        rfl
    have hle : t ≤ (s.expireLostProbe c).earliest := hpasses ▸ Nat.le_max_left _ _
    simp only [ready, hp]
    exact Nat.max_le.mpr ⟨Nat.le_trans hle (Nat.le_max_right _ _), hslot⟩

/-- A timer is set for the earliest possible grant or before it. -/
theorem parked_timer {s u : State} {lane : Lane} {failFast : Bool} {c : Clock} {t : Instant}
    (h : s.slot lane failFast c = (.park (some t), u)) : t ≤ u.earliest := by
  rcases slot_cases s c lane failFast with
    ⟨_, -, -, hs⟩ | ⟨-, hs⟩ | ⟨-, hready, hs⟩ | ⟨-, -, hs⟩ <;> cases hs.symm.trans h
  rcases Nat.le_total c.now (s.expireLostProbe c).earliest with hle | hle
  · exact Nat.le_trans (ready_le s c) (Nat.le_of_eq (Nat.max_eq_right hle))
  · have hle := Nat.le_trans (ready_le s c) (Nat.le_of_eq (Nat.max_eq_left hle))
    exact absurd hle (Nat.not_le_of_lt hready)

/-- Without a timer a caller parks only behind a higher lane. -/
theorem parked_untimed {s u : State} {lane : Lane} {failFast : Bool} {c : Clock}
    (h : s.slot lane failFast c = (.park none, u)) : ∃ l ∈ lane.higher, 0 < u.waiting l := by
  rcases slot_cases s c lane failFast with
    ⟨_, -, -, hs⟩ | ⟨hhigher, hs⟩ | ⟨-, -, hs⟩ | ⟨-, -, hs⟩ <;> cases hs.symm.trans h
  rw [expireLostProbe_waiting]
  exact hhigher

/-- Nobody is granted before `earliest`. -/
theorem earliest_le_of_granted {s u : State} {lane : Lane} {failFast : Bool} {c : Clock}
    (h : s.slot lane failFast c = (.granted, u)) : s.earliest ≤ c.now := by
  obtain ⟨-, -, hslot, -, hpass⟩ := slot_granted s c h
  have hpasses : s.passesAt ≤ c.now := by
    rcases hpass with ⟨-, hb⟩ | ⟨o, -, hb, hnone, hdue⟩
    · simp only [passesAt, hb, Nat.zero_le]
    · rw [passesAt_of_some hb, hnone]
      exact hdue
  have hgrant : (s.lastGrant.elim 0 fun t => t + s.interval) ≤ c.now := by
    unfold nextSlot at hslot
    cases hl : s.lastGrant with
    | none => exact Nat.zero_le _
    | some t => simpa only [hl, Option.elim_some] using hslot
  exact Nat.max_le.mpr ⟨hpasses, hgrant⟩

end State

namespace Limiter

/-- What is left to wake a parked caller: a notification that has arrived or that an operation
under way still has to send, a higher lane to wait for, or a timer that is early enough. -/
def Alarmed (s : Limiter) (lane : Lane) (wakeAt : Option Instant) (notified : Bool) : Prop :=
  (notified = true ∨ 0 < s.owed) ∨ (∃ l ∈ lane.higher, 0 < s.state.waiting l) ∨
    ∃ t, wakeAt = some t ∧ t ≤ s.state.earliest

def AllAlarmed (s : Limiter) : Prop :=
  ∀ (i : Nat) (lane : Lane) (failFast : Bool) (wakeAt : Option Instant) (n : Bool),
    s.callers[i]? = some ⟨lane, failFast, .parked wakeAt n⟩ → s.Alarmed lane wakeAt n

/-- A step that notifies nobody keeps the alarms as long as no caller becomes grantable earlier. -/
theorem Alarmed.mono {s t : Limiter} {lane : Lane} {wakeAt : Option Instant} {n : Bool}
    (h : s.Alarmed lane wakeAt n) (howed : s.owed = t.owed)
    (hwaiting : ∀ l, s.state.waiting l ≤ t.state.waiting l)
    (hearliest : s.state.earliest ≤ t.state.earliest) : t.Alarmed lane wakeAt n := by
  rcases h with (hn | ho) | ⟨l, hl, hpos⟩ | ⟨u, hu, hle⟩
  · exact .inl (.inl hn)
  · exact .inl (.inr (howed ▸ ho))
  · exact .inr (.inl ⟨l, hl, Nat.lt_of_lt_of_le hpos (hwaiting l)⟩)
  · exact .inr (.inr ⟨u, hu, Nat.le_trans hle hearliest⟩)

theorem getElem?_put {s : Limiter} {i j : Nat} {new c : Caller} (h : (s.put i new).callers[j]? = some c) :
    (j = i ∧ c = new) ∨ s.callers[j]? = some c := by
  simp only [put, List.getElem?_set] at h
  split at h
  · next hij =>
      split at h
      · cases h
        exact .inl ⟨hij.symm, rfl⟩
      · cases h
  · exact .inr h

theorem getElem?_enter {s : Limiter} {j : Nat} {new c : Caller}
    (h : (s.callers ++ [new])[j]? = some c) : c = new ∨ s.callers[j]? = some c := by
  rw [List.getElem?_append] at h
  split at h
  · exact .inr h
  · exact .inl (List.mem_singleton.mp (List.mem_of_getElem? h))

theorem parked_notify {c : Caller} {lane : Lane} {failFast : Bool} {wakeAt : Option Instant} {n : Bool}
    (h : c.notify = ⟨lane, failFast, .parked wakeAt n⟩) : n = true := by
  obtain ⟨lane', failFast', phase⟩ := c
  cases phase <;> cases h
  rfl

theorem enter_waiting_le (s : State) (lane l : Lane) : s.waiting l ≤ (s.enter lane).waiting l := by
  by_cases hl : l = lane
  · subst hl
    simp only [State.enter, Function.update_self, Nat.le_succ]
  · simp only [State.enter, Function.update_of_ne hl, Nat.le_refl]

/-- A report that notifies nobody leaves the breaker open and without a probe. -/
theorem report_silent {s : State} {outcome : Outcome} {c : Clock} (h : (s.report outcome c).2 = false) :
    (∀ l, s.waiting l ≤ (s.report outcome c).1.waiting l) ∧
      s.earliest ≤ (s.report outcome c).1.earliest := by
  obtain ⟨limited, errors, hr⟩ := State.report_cases s c outcome
  rcases hr with ⟨o, -, -, hr⟩ | ⟨-, -, hr⟩ | ⟨-, -, reason, hr⟩ | ⟨-, -, hr⟩ <;> rw [hr] at h ⊢
  · refine ⟨fun l => Nat.le_of_eq (congrFun (State.expireLostProbe_waiting s c) l).symm, ?_⟩
    exact State.earliest_le_expireLostProbe s c
  all_goals cases h

theorem step_allAlarmed {s t : Limiter} {l : Label} (hs : AllAlarmed s) (h : s.step l = some t) :
    AllAlarmed t := by
  have hexpire := fun c => State.earliest_le_expireLostProbe s.state c
  have hwaits := fun c l => Nat.le_of_eq (congrFun (State.expireLostProbe_waiting s.state c) l).symm
  intro j lane failFast wakeAt n hj
  cases step_cases h with
  | enter lane' failFast' =>
      rcases getElem?_enter hj with hc | hj
      · cases hc
      · exact (hs j lane failFast wakeAt n hj).mono rfl (enter_waiting_le s.state lane')
          (Nat.le_refl _)
  | enable hi | cancel hi =>
      rcases getElem?_put hj with ⟨-, hc⟩ | hj
      · cases hc
      · exact hs j lane failFast wakeAt n hj
  | wake _ hi =>
      rcases getElem?_put hj with ⟨-, hc⟩ | hj
      · cases hc
      · exact hs j lane failFast wakeAt n hj
  | refuse _ hi hv =>
      cases State.slot_not_granted s.state _ hv (by simp)
      rcases getElem?_put hj with ⟨-, hc⟩ | hj
      · cases hc
      · exact (hs j lane failFast wakeAt n hj).mono rfl (hwaits _) (hexpire _)
  | park _ hi hv =>
      have hexpired := State.slot_not_granted s.state _ hv (by simp)
      rcases getElem?_put hj with ⟨-, hc⟩ | hold
      · cases hc
        cases wakeAt with
        | none => exact .inr (.inl (State.parked_untimed hv))
        | some u => exact .inr (.inr ⟨u, rfl, State.parked_timer hv⟩)
      · cases hexpired
        exact (hs j lane failFast wakeAt n hold).mono rfl (hwaits _) (hexpire _)
  | grant | dropGuard | setRatePerSecond => exact .inl (.inr (Nat.succ_pos _))
  | notifyWaiters =>
      rw [List.getElem?_map, Option.map_eq_some_iff] at hj
      obtain ⟨c, -, hc⟩ := hj
      exact .inl (.inl (parked_notify hc))
  | @report c outcome _ =>
      cases hn : (s.state.report outcome c).2 with
      | true => exact .inl (.inr (Nat.succ_pos s.owed))
      | false =>
          obtain ⟨hwaiting, hearliest⟩ := report_silent hn
          exact (hs j lane failFast wakeAt n hj).mono rfl hwaiting hearliest
  | isBlocked | snapshot => exact (hs j lane failFast wakeAt n hj).mono rfl (hwaits _) (hexpire _)

theorem run_allAlarmed {rate : Rat} {ls : List Label} {s : Limiter} (run : Run rate ls s) :
    AllAlarmed s :=
  run.invariant (fun _ _ _ => step_allAlarmed) fun i _ _ _ _ hi => by
    rw [new, List.getElem?_nil] at hi
    cases hi

/-- A parked caller has a notification coming, a higher lane ahead of it, or a timer that is early
enough; so one that would be granted can always be woken. -/
theorem no_lost_wakeup {rate : Rat} {ls : List Label} {s : Limiter} (run : Run rate ls s) {i : Nat}
    {lane : Lane} {failFast : Bool} {wakeAt : Option Instant} {n : Bool}
    (h : s.callers[i]? = some ⟨lane, failFast, .parked wakeAt n⟩) :
    ((n = true ∨ 0 < s.owed) ∨
        (∃ (j : Nat) (c : Caller), s.callers[j]? = some c ∧ c.phase.live = true ∧
          c.lane.index < lane.index) ∨
        ∃ t, wakeAt = some t ∧ t ≤ s.state.earliest) ∧
      ∀ c : Clock, s.clock ≤ c.now → (s.state.slot lane failFast c).1 = .granted →
        mayWake wakeAt n c.now = true ∨ 0 < s.owed := by
  have hcounts := run_countsExact run
  have halarmed := run_allAlarmed run i lane failFast wakeAt n h
  constructor
  · rcases halarmed with hn | ⟨l, hl, hpos⟩ | ht
    · exact .inl hn
    · rw [hcounts l] at hpos
      obtain ⟨j, c, hj, hc⟩ := exists_getElem?_of_countP_pos hpos
      rw [Caller.waitsIn, Bool.and_eq_true, beq_iff_eq] at hc
      exact .inr (.inl ⟨j, c, hj, hc.2, hc.1 ▸ Lane.mem_higher.mp hl⟩)
    · exact .inr (.inr ht)
  · intro c _ hgranted
    have hslot : s.state.slot lane failFast c = (.granted, (s.state.slot lane failFast c).2) :=
      Prod.ext hgranted rfl
    rcases halarmed with (hn | ho) | ⟨l, hl, hpos⟩ | ⟨t, rfl, ht⟩
    · exact .inl (by rw [hn]; rfl)
    · exact .inr ho
    · obtain ⟨-, hnone, -⟩ := State.slot_granted s.state c hslot
      exact absurd (hnone l hl) (Nat.ne_of_gt hpos)
    · have hle := Nat.le_trans ht (State.earliest_le_of_granted hslot)
      exact .inl (by simp only [mayWake, Option.any_some, decide_eq_true hle, Bool.or_true])

/-- A trader that comes second is parked with a timer for the end of the interval. -/
theorem no_lost_wakeup_second_trader :
    let s := replay step (new (5 / 2))
      [.enter .trader false, .enable 0, .lock 0 ⟨0, 0⟩, .notifyWaiters,
        .enter .trader false, .enable 1, .lock 1 ⟨5, 5⟩]
    ∀ c : Clock, s.clock ≤ c.now → (s.state.slot .trader false c).1 = .granted →
      mayWake (some 400000000) false c.now = true ∨ 0 < s.owed := by
  intro s
  have run : Run (5 / 2) _ s := trace_replay (by decide +kernel)
  have parked : s.callers[1]? = some ⟨.trader, false, .parked (some 400000000) false⟩ := by
    decide +kernel
  exact (no_lost_wakeup run parked).2

end Limiter

end Quantframe.Market
