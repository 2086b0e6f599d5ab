import Quantframe.Market.Callers

/-!
# Breaker safety

Each step of the limiter is one move of a three-state breaker (closed, open, probing). Safety is
proved of the moves; nothing below looks into the locked sections again.
-/

namespace Quantframe.Market
open Quantframe.Lib

namespace Limiter

/-- What step `l` does to the breaker. -/
inductive Move (s : Limiter) (l : Label) (t : Limiter) : Prop
  | stay : t.state.breaker = s.state.breaker → t.state.tripsTotal = s.state.tripsTotal →
      Move s l t
  | probed {o : Open} : s.state.breaker = some o → o.probe = none → o.until ≤ t.clock →
      t.state.breaker = some { o with probe := some t.clock } →
      t.state.tripsTotal = s.state.tripsTotal → Move s l t
  | closed {o : Open} {p : Instant} {c : Clock} : l = .report .ok c → s.state.breaker = some o →
      o.probe = some p → t.state.breaker = none →
      t.state.tripsTotal = s.state.tripsTotal → Move s l t
  | opened {o : Open} : s.state.breaker = none → t.state.breaker = some o → o.probe = none →
      t.clock < o.until → t.state.tripsTotal = s.state.tripsTotal + 1 → Move s l t
  | failed {o o' : Open} {p : Instant} : s.state.breaker = some o → o.probe = some p →
      ((∃ out c, l = .report out c ∧ out ≠ .ok) ∨ p + probeTimeout ≤ t.clock) →
      t.state.breaker = some o' → o'.probe = none → t.clock < o'.until →
      t.state.tripsTotal = s.state.tripsTotal + 1 → Move s l t

theorem step_clock {s t : Limiter} {l : Label} (h : s.step l = some t) : s.clock ≤ t.clock := by
  cases step_cases h with
  | enter | enable | cancel | dropGuard | notifyWaiters | setRatePerSecond => exact Nat.le_refl _
  | refuse hc | park hc | grant hc | wake hc | report _ hc | isBlocked hc | snapshot hc => exact hc

theorem trace_clock {s t : Limiter} {ls : List Label} (run : Trace step s ls t) :
    s.clock ≤ t.clock := by
  induction run with
  | nil => exact Nat.le_refl _
  | cons first _ ih => exact Nat.le_trans (step_clock first) ih

/-- A locked section that only expires a lost probe either keeps the breaker or fails the probe. -/
theorem move_of_expire {s t : Limiter} {l : Label} {c : Clock} (hclock : t.clock = c.now)
    (hb : t.state.breaker = (s.state.expireLostProbe c).breaker)
    (ht : t.state.tripsTotal = (s.state.expireLostProbe c).tripsTotal) : Move s l t := by
  rcases State.expireLostProbe_cases s.state c with ⟨he, -⟩ | ⟨o, p, reason, ho, hp, hlate, he⟩
  · exact .stay (by rw [hb, he]) (by rw [ht, he])
  · obtain ⟨o', ho', hnone, huntil⟩ := State.trip_breaker s.state c reason
    refine .failed ho hp (.inr (hclock ▸ hlate)) ?_ hnone (hclock ▸ huntil) ?_
    · rw [hb, he, ho']
    · rw [ht, he, State.trip_tripsTotal]

theorem step_move {s t : Limiter} {l : Label} (h : s.step l = some t) : Move s l t := by
  cases step_cases h with
  | enter | enable | wake | cancel | dropGuard | notifyWaiters | setRatePerSecond => exact .stay rfl rfl
  | refuse hc hi hv =>
      cases State.slot_not_granted s.state _ hv (by simp)
      exact move_of_expire rfl rfl rfl
  | park hc hi hv =>
      cases State.slot_not_granted s.state _ hv (by simp)
      exact move_of_expire rfl rfl rfl
  | @grant i c lane failFast n state hc hi hv =>
      obtain ⟨-, -, -, hu, hpass⟩ := State.slot_granted s.state c hv
      subst hu
      rcases hpass with ⟨hp, hb⟩ | ⟨o, hp, hb, hnone, hdue⟩
      · exact .stay (by simp only [State.grant, hp]) rfl
      · exact .probed hb hnone hdue (by simp only [State.grant, hp, hb, Option.map_some]) rfl
  | @report c outcome hc =>
      obtain ⟨limited, errors, hr⟩ := State.report_cases s.state c outcome
      rcases hr with ⟨o, -, -, hr⟩ | ⟨hprobing, hok, hr⟩ | ⟨hprobing, hbad, reason, hr⟩ | ⟨-, -, hr⟩
      · exact move_of_expire rfl (by simp only [hr]; rfl) (by simp only [hr]; rfl)
      · rw [State.expireLostProbe_eq_self s.state c hprobing] at hr hprobing
        cases hb : s.state.breaker with
        | none => exact .stay (by simp only [hr, hb]) (by simp only [hr]; rfl)
        | some o =>
            obtain ⟨p, hp⟩ := Option.ne_none_iff_exists'.mp (hprobing o hb)
            exact .closed (c := c) (by rw [hok]) hb hp (by simp only [hr]) (by simp only [hr]; rfl)
      · rw [State.expireLostProbe_eq_self s.state c hprobing] at hr hprobing
        obtain ⟨o', ho', hnone, huntil⟩ := State.trip_breaker (s.state.tally limited errors) c reason
        have htrips : (s.state.report outcome c).1.tripsTotal = s.state.tripsTotal + 1 := by
          rw [hr]
          rfl
        have hopen : (s.state.report outcome c).1.breaker = some o' := by
          rw [hr]
          exact ho'
        cases hb : s.state.breaker with
        | none => exact .opened hb hopen hnone huntil htrips
        | some o =>
            obtain ⟨p, hp⟩ := Option.ne_none_iff_exists'.mp (hprobing o hb)
            exact .failed hb hp (.inl ⟨outcome, c, rfl, hbad⟩) hopen hnone huntil htrips
      · exact move_of_expire rfl (by simp only [hr]; rfl) (by simp only [hr]; rfl)
  | isBlocked hc | snapshot hc => exact move_of_expire rfl rfl rfl

/-- A probe is granted after its period has ended, and not in the future. -/
def ProbeDated (s : Limiter) : Prop :=
  ∀ o p, s.state.breaker = some o → o.probe = some p → o.until ≤ p ∧ p ≤ s.clock

theorem step_probeDated {s t : Limiter} {l : Label} (hs : ProbeDated s) (h : s.step l = some t) :
    ProbeDated t := by
  have hclock := step_clock h
  intro o p ho hp
  cases step_move h with
  | stay hb =>
      have := hs o p (hb ▸ ho) hp
      exact ⟨this.1, Nat.le_trans this.2 hclock⟩
  | probed hb hnone hdue hb' =>
      rw [hb'] at ho
      cases ho
      cases hp
      exact ⟨hdue, Nat.le_refl _⟩
  | closed _ _ _ hb' => rw [hb'] at ho; cases ho
  | opened _ hb' hnone => rw [hb'] at ho; cases ho; rw [hnone] at hp; cases hp
  | failed _ _ _ hb' hnone => rw [hb'] at ho; cases ho; rw [hnone] at hp; cases hp

theorem run_probeDated {rate : Rat} {ls : List Label} {s : Limiter} (run : Run rate ls s) :
    ProbeDated s :=
  run.invariant (fun _ _ _ => step_probeDated) fun o p ho => by cases ho

theorem grants_breaker {s : Limiter} {l : Label} {i : Nat} {lane : Lane} {now : Instant}
    (h : s.Grants l i lane now) {o : Open} (ho : s.state.breaker = some o) :
    o.probe = none ∧ o.until ≤ now := by
  obtain ⟨c, failFast, n, -, rfl, -, -, hv⟩ := h
  obtain ⟨-, -, -, -, ⟨-, hb⟩ | ⟨o', -, hb, hnone, hdue⟩⟩ :=
    State.slot_granted s.state c (Prod.ext hv rfl)
  · cases hb.symm.trans ho
  · cases hb.symm.trans ho
    exact ⟨hnone, hdue⟩

/-- A step that grants nothing and leaves no probe out keeps an open period as it is. -/
theorem period_lasts {s t : Limiter} {ls : List Label} {o : Open} (run : Trace step s ls t)
    (hb : s.state.breaker = some o) (hnone : o.probe = none) :
    t.state.breaker = some o ∨ o.until ≤ t.clock := by
  induction run with
  | nil => exact .inl hb
  | cons first rest ih =>
      cases step_move first with
      | stay hb' => exact ih (hb' ▸ hb)
      | probed hb' _ hdue =>
          cases hb'.symm.trans hb
          exact .inr (Nat.le_trans hdue (trace_clock rest))
      | closed _ hb' hp | failed hb' hp =>
          cases hb'.symm.trans hb
          rw [hnone] at hp
          cases hp
      | opened hb' => cases hb'.symm.trans hb

/-- The step closes the breaker by a normal response. -/
def Closes (s : Limiter) (l : Label) (t : Limiter) : Prop :=
  (∃ c, l = .report .ok c) ∧ s.state.breaker ≠ none ∧ t.state.breaker = none

/-- The step fails the outstanding probe and opens a later period, which ends at `til`. -/
def ProbeFails (s : Limiter) (l : Label) (t : Limiter) (til : Instant) : Prop :=
  ∃ o p o', s.state.breaker = some o ∧ o.probe = some p ∧
    ((∃ out c, l = .report out c ∧ out ≠ .ok) ∨ p + probeTimeout ≤ t.clock) ∧
    t.state.breaker = some o' ∧ o'.probe = none ∧ o'.until = til ∧ o.until < til

theorem trips_mono {s t : Limiter} {ls : List Label} (run : Trace step s ls t) :
    s.state.tripsTotal ≤ t.state.tripsTotal := by
  induction run with
  | nil => exact Nat.le_refl _
  | cons first _ ih =>
      refine Nat.le_trans ?_ ih
      cases step_move first with
      | stay _ h | probed _ _ _ _ h | closed _ _ _ _ h => exact Nat.le_of_eq h.symm
      | opened _ _ _ _ h | failed _ _ _ _ _ _ h => exact h ▸ Nat.le_succ _

theorem trips_lt_of_opened {s t : Limiter} {ls : List Label} {o : Open} (run : Trace step s ls t)
    (hs : s.state.breaker = none) (ht : t.state.breaker = some o) :
    s.state.tripsTotal < t.state.tripsTotal := by
  induction run with
  | nil => cases hs.symm.trans ht
  | cons first rest ih =>
      cases step_move first with
      | stay hb h => exact h ▸ ih (hb ▸ hs) ht
      | opened _ _ _ _ h => exact Nat.lt_of_lt_of_le (h ▸ Nat.lt_succ_self _) (trips_mono rest)
      | probed hb | closed _ hb | failed hb => cases hb.symm.trans hs

/-- What separates a probe from the next grant of the run: its answer. -/
def Answered (s : Limiter) (ls : List Label) (t : Limiter) (now : Instant) : Prop :=
  ∃ ks x ms a b, ls = ks ++ x :: ms ∧ Trace step s ks a ∧ step a x = some b ∧ Trace step b ms t ∧
    (Closes a x b ∨ ∃ til, ProbeFails a x b til ∧ til ≤ now)

theorem Answered.cons {s m t : Limiter} {l : Label} {ls : List Label} {now : Instant}
    (first : step s l = some m) (h : Answered m ls t now) : Answered s (l :: ls) t now := by
  obtain ⟨ks, x, ms, a, b, rfl, hks, hx, hms, hab⟩ := h
  exact ⟨l :: ks, x, ms, a, b, rfl, .cons first hks, hx, hms, hab⟩

theorem probe_answered {s t : Limiter} {ls : List Label} {o : Open} {p : Instant} {l : Label}
    {i : Nat} {lane : Lane} {now : Instant} (run : Trace step s ls t) (hdated : ProbeDated s)
    (hb : s.state.breaker = some o) (hp : o.probe = some p) (hg : t.Grants l i lane now) :
    Answered s ls t now := by
  induction run with
  | nil s =>
      have := (grants_breaker hg hb).1
      rw [hp] at this
      cases this
  | @cons s m t x ls first rest ih =>
      have hlate := trace_clock rest
      cases step_move first with
      | stay hb' => exact .cons first (ih (step_probeDated hdated first) (hb' ▸ hb) hg)
      | probed hb' hnone =>
          cases hb'.symm.trans hb
          rw [hp] at hnone
          cases hnone
      | closed hl hb' _ hm =>
          refine ⟨[], x, ls, s, m, rfl, .nil s, first, rest, .inl ⟨⟨_, hl⟩, ?_, hm⟩⟩
          rw [hb']
          exact Option.some_ne_none _
      | opened hb' => cases hb'.symm.trans hb
      | @failed o₁ o' p₁ hb' hp' hwhy hm hnone huntil =>
          cases hb'.symm.trans hb
          cases hp'.symm.trans hp
          have hold := hdated o p hb hp
          have hlater : o.until < o'.until :=
            Nat.lt_of_le_of_lt (Nat.le_trans hold.1 (Nat.le_trans hold.2 (step_clock first))) huntil
          have hover : o'.until ≤ now := by
            rcases period_lasts rest hm hnone with hsame | hdue
            · exact (grants_breaker hg hsame).2
            · obtain ⟨c, _, _, -, rfl, hc, -, -⟩ := hg
              exact Nat.le_trans hdue hc
          exact ⟨[], x, ls, s, m, rfl, .nil s, first, rest,
            .inr ⟨_, ⟨o, p, o', hb, hp, hwhy, hm, hnone, rfl, hlater⟩, hover⟩⟩

theorem Answered.trips_lt {s t : Limiter} {ls : List Label} {now : Instant} {o : Open}
    (h : Answered s ls t now) (ht : t.state.breaker = some o) :
    s.state.tripsTotal < t.state.tripsTotal := by
  obtain ⟨ks, x, ms, a, b, -, hks, hx, hms, ⟨-, -, hb⟩ | ⟨til, ⟨o₁, p, o₂, ha, hp, -, hb, hnone, rfl, hlt⟩, -⟩⟩ := h
  · refine Nat.lt_of_le_of_lt ?_ (trips_lt_of_opened hms hb ht)
    exact trips_mono (hks.append (.single hx))
  · refine Nat.lt_of_le_of_lt (trips_mono hks) (Nat.lt_of_lt_of_le ?_ (trips_mono hms))
    cases step_move hx with
    | stay h =>
        cases hb.symm.trans (h.trans ha)
        rw [hp] at hnone
        cases hnone
    | probed h hn =>
        cases ha.symm.trans h
        rw [hp] at hn
        cases hn
    | closed _ _ _ h => cases hb.symm.trans h
    | opened h => cases ha.symm.trans h
    | failed _ _ _ _ _ _ h => exact h ▸ Nat.lt_succ_self _

/-- Breaker safety, over every run from a fresh limiter. A grant never falls into an open period
before its end nor beside an outstanding probe; a grant that is a probe is the only one of its
period; and before the next grant of any lane the probe has been answered, by a close or by a
failure whose later period is over. -/
theorem breaker_safe {rate : Rat} {ls : List Label} {s : Limiter} (run : Run rate ls s)
    {l : Label} {i : Nat} {lane : Lane} {now : Instant} (hg : s.Grants l i lane now) :
    (∀ o, s.state.breaker = some o → o.probe = none ∧ o.until ≤ now) ∧
      ∀ (s₁ : Limiter) (ks : List Label) (t : Limiter) (k : Label) (j : Nat) (lane' : Lane)
        (now' : Instant), step s l = some s₁ → Trace step s₁ ks t → t.Grants k j lane' now' →
        s.state.breaker ≠ none →
        Answered s₁ ks t now' ∧ (t.state.breaker ≠ none → s.state.tripsTotal < t.state.tripsTotal) := by
  refine ⟨fun o ho => grants_breaker hg ho, ?_⟩
  intro s₁ ks t k j lane' now' first rest hg' hopen
  obtain ⟨o, ho⟩ := Option.ne_none_iff_exists'.mp hopen
  have hdated := step_probeDated (run_probeDated run) first
  have hprobe : s₁.state.breaker = some { o with probe := some s₁.clock } ∧
      s₁.state.tripsTotal = s.state.tripsTotal := by
    obtain ⟨c, failFast, hnow, hv, hclock, -⟩ := hg.next first
    obtain ⟨-, -, -, hu, ⟨-, hb⟩ | ⟨o', hp, hb, -, -⟩⟩ := State.slot_granted s.state c hv
    · exact absurd hb hopen
    · cases ho.symm.trans hb
      refine ⟨?_, by rw [hu]; rfl⟩
      rw [hu, hclock, ← hnow]
      simp only [State.grant, hp, ho, Option.map_some]
  have hanswered := probe_answered rest hdated hprobe.1 rfl hg'
  refine ⟨hanswered, ?_⟩
  intro ht
  obtain ⟨o', ho'⟩ := Option.ne_none_iff_exists'.mp ht
  exact hprobe.2 ▸ hanswered.trips_lt ho'

/-- A challenge at 0 s, the probe at 900 s, its answer at 901 s and the next grant at 902 s. -/
theorem breaker_safe_first_probe :
    let s := replay step (new (5 / 2)) [.report .challenge ⟨0, 0⟩, .enter .cold false, .enable 0]
    let s₁ := replay step s [.lock 0 ⟨fromSecs 900, 0⟩]
    let ks := [.report .ok ⟨fromSecs 901, 0⟩, .enter .hot true, .enable 1]
    Answered s₁ ks (replay step s₁ ks) (fromSecs 902) := by
  intro s s₁ ks
  have run : Run (5 / 2) _ s := trace_replay (by decide +kernel)
  have first : step s (.lock 0 ⟨fromSecs 900, 0⟩) = some s₁ := rfl
  have rest : Trace step s₁ ks (replay step s₁ ks) := trace_replay (by decide +kernel)
  have probe : s.Grants (.lock 0 ⟨fromSecs 900, 0⟩) 0 .cold (fromSecs 900) :=
    ⟨_, false, false, rfl, rfl, by decide +kernel, by decide +kernel, by decide +kernel⟩
  have second : (replay step s₁ ks).Grants (.lock 1 ⟨fromSecs 902, 0⟩) 1 .hot (fromSecs 902) :=
    ⟨_, true, false, rfl, rfl, by decide +kernel, by decide +kernel, by decide +kernel⟩
  exact ((breaker_safe run probe).2 _ _ _ _ _ _ _ first rest second (Option.some_ne_none _)).1

end Limiter

end Quantframe.Market
