import Quantframe.Lib.Counting
import Quantframe.Market.Breaker

/-!
# Waiting counts, lane priority and spacing

`waiting` is decremented inside the lock by a grant and outside it by the `Waiting` guard. Both
act on a live caller, and each caller stops being live exactly once.
-/

namespace Quantframe.Market
open Quantframe.Lib

def Caller.waitsIn (l : Lane) (c : Caller) : Bool := c.lane == l && c.phase.live

@[simp] theorem Caller.waitsIn_notify (l : Lane) (c : Caller) : c.notify.waitsIn l = c.waitsIn l := by
  obtain ⟨lane, failFast, phase⟩ := c
  cases phase <;> rfl

theorem Caller.waitsIn_live {lane : Lane} {failFast : Bool} {p : Phase} (hp : p.live = true)
    (l : Lane) : Caller.waitsIn l ⟨lane, failFast, p⟩ = (lane == l) := by
  simp only [Caller.waitsIn, hp, Bool.and_true]

theorem Caller.waitsIn_finished {lane : Lane} {failFast granted : Bool} (l : Lane) :
    Caller.waitsIn l ⟨lane, failFast, .finished granted⟩ = false := Bool.and_false _

namespace Limiter

/-- How many callers of a lane have entered and are neither granted, refused nor dropped. -/
def live (s : Limiter) (l : Lane) : Nat := s.callers.countP (Caller.waitsIn l)

def CountsExact (s : Limiter) : Prop := ∀ l, s.state.waiting l = s.live l

theorem live_put {s : Limiter} {i : Nat} {old : Caller} (h : s.callers[i]? = some old) (new : Caller)
    (l : Lane) :
    (s.put i new).live l + (if old.waitsIn l then 1 else 0) =
      s.live l + (if new.waitsIn l then 1 else 0) :=
  countP_set_add h

/-- A live caller that stays live does not change the counts. -/
theorem live_put_live {s : Limiter} {i : Nat} {lane : Lane} {failFast : Bool} {p : Phase}
    (h : s.callers[i]? = some ⟨lane, failFast, p⟩) (hp : p.live = true) {q : Phase}
    (hq : q.live = true) (l : Lane) : (s.put i ⟨lane, failFast, q⟩).live l = s.live l := by
  have := live_put h ⟨lane, failFast, q⟩ l
  rw [Caller.waitsIn_live hp, Caller.waitsIn_live hq] at this
  exact Nat.add_right_cancel this

/-- A live caller that is done lowers its own lane by one. -/
theorem live_put_done {s : Limiter} {i : Nat} {lane : Lane} {failFast : Bool} {p : Phase}
    (h : s.callers[i]? = some ⟨lane, failFast, p⟩) (hp : p.live = true) (granted : Bool) (l : Lane) :
    (s.put i ⟨lane, failFast, .finished granted⟩).live l =
      Function.update s.live lane (s.live lane - 1) l := by
  have := live_put h ⟨lane, failFast, .finished granted⟩ l
  rw [Caller.waitsIn_live hp, Caller.waitsIn_finished, if_neg Bool.false_ne_true, Nat.add_zero] at this
  by_cases hl : lane = l
  · subst hl
    rw [beq_self_eq_true, if_pos rfl] at this
    rw [Function.update_self]
    omega
  · rw [beq_false_of_ne hl, if_neg Bool.false_ne_true, Nat.add_zero] at this
    rw [this, Function.update_of_ne (Ne.symm hl)]

theorem step_countsExact {s t : Limiter} {l : Label} (hs : CountsExact s) (h : s.step l = some t) :
    CountsExact t := by
  intro k
  cases step_cases h with
  | enter lane failFast =>
      by_cases hk : lane = k
      · subst hk
        simp [State.enter, live, Caller.waitsIn, Phase.live, hs lane]
      · simp [State.enter, live, Caller.waitsIn, Phase.live, hs k, hk, Function.update_of_ne (Ne.symm hk)]
  | enable hi => exact (hs k).trans (live_put_live hi rfl rfl k).symm
  | wake _ hi => exact (hs k).trans (live_put_live hi rfl rfl k).symm
  | cancel hi => exact (hs k).trans (live_put_live hi rfl rfl k).symm
  | refuse _ hi hv =>
      cases State.slot_not_granted s.state _ hv (by simp)
      exact (congrFun (State.expireLostProbe_waiting s.state _) k).trans
        ((hs k).trans (live_put_live hi rfl rfl k).symm)
  | park _ hi hv =>
      cases State.slot_not_granted s.state _ hv (by simp)
      exact (congrFun (State.expireLostProbe_waiting s.state _) k).trans
        ((hs k).trans (live_put_live hi rfl rfl k).symm)
  | @grant i c lane failFast n state _ hi hv =>
      obtain ⟨-, -, -, hu, -⟩ := State.slot_granted s.state c hv
      have hdone := live_put_done hi rfl true k
      rw [← funext hs] at hdone
      exact hu ▸ hdone.symm
  | @dropGuard i lane failFast hi =>
      have hdone := live_put_done hi rfl false k
      rw [← funext hs] at hdone
      exact hdone.symm
  | notifyWaiters =>
      refine (hs k).trans ?_
      simp only [live, List.countP_map]
      exact congrFun (congrArg _ (funext fun c => (Caller.waitsIn_notify k c).symm)) _
  | @report c outcome _ =>
      exact (congrFun (State.report_frame s.state c outcome).1 k).trans (hs k)
  | setRatePerSecond rate => exact hs k
  | isBlocked | snapshot => exact (congrFun (State.expireLostProbe_waiting s.state _) k).trans (hs k)

theorem run_countsExact {rate : Rat} {ls : List Label} {s : Limiter} (run : Run rate ls s) :
    CountsExact s :=
  run.invariant (fun _ _ _ => step_countsExact) fun _ => rfl

theorem live_pos {s : Limiter} {i : Nat} {c : Caller} (h : s.callers[i]? = some c)
    (hl : c.phase.live = true) : 0 < s.live c.lane := by
  refine countP_pos_of_getElem? h ?_
  simp only [Caller.waitsIn, hl, beq_self_eq_true, Bool.and_self]

/-- A lane whose count is zero has no live caller. -/
theorem not_live_of_waiting_zero {s : Limiter} (hs : CountsExact s) {i : Nat} {c : Caller}
    (h : s.callers[i]? = some c) (hz : s.state.waiting c.lane = 0) : c.phase.live = false := by
  cases hl : c.phase.live with
  | false => rfl
  | true =>
      have := live_pos h hl
      rw [← hs c.lane, hz] at this
      cases this

/-- The last grant was at `t` or later, and not in the future. -/
def GrantedSince (t : Instant) (s : Limiter) : Prop :=
  ∃ u, s.state.lastGrant = some u ∧ t ≤ u ∧ u ≤ s.clock

theorem step_lastGrant {s t : Limiter} {l : Label} (h : s.step l = some t) :
    t.state.lastGrant = s.state.lastGrant ∨ t.state.lastGrant = some t.clock := by
  cases step_cases h with
  | enter | enable | wake | cancel | dropGuard | notifyWaiters | setRatePerSecond => exact .inl rfl
  | refuse _ _ hv | park _ _ hv =>
      cases State.slot_not_granted s.state _ hv (by simp)
      exact .inl (State.expireLostProbe_lastGrant s.state _)
  | grant _ _ hv =>
      obtain ⟨-, -, -, hu, -⟩ := State.slot_granted s.state _ hv
      exact .inr (by rw [hu]; rfl)
  | report outcome => exact .inl (State.report_frame s.state _ outcome).2.2
  | isBlocked | snapshot => exact .inl (State.expireLostProbe_lastGrant s.state _)

theorem step_grantedSince {s t : Limiter} {l : Label} {u : Instant} (hs : GrantedSince u s)
    (h : s.step l = some t) : GrantedSince u t := by
  obtain ⟨v, hv, huv, hle⟩ := hs
  have hclock := step_clock h
  rcases step_lastGrant h with hsame | hnew
  · exact ⟨v, hsame.trans hv, huv, Nat.le_trans hle hclock⟩
  · exact ⟨t.clock, hnew, Nat.le_trans huv (Nat.le_trans hle hclock), Nat.le_refl _⟩

theorem Grants.grantedSince {s t : Limiter} {l : Label} {i : Nat} {lane : Lane} {now : Instant}
    (hg : s.Grants l i lane now) (h : s.step l = some t) : GrantedSince now t := by
  obtain ⟨c, failFast, hnow, hv, hclock, -⟩ := hg.next h
  obtain ⟨-, -, -, hu, -⟩ := State.slot_granted s.state c hv
  exact ⟨now, by rw [hu, ← hnow]; rfl, Nat.le_refl _, Nat.le_of_eq hclock.symm⟩

/-- Counts, strict priority and spacing over every run from a fresh limiter. -/
theorem priority_spacing_and_counts {rate : Rat} {ls : List Label} {s : Limiter}
    (run : Run rate ls s) :
    (∀ l, s.state.waiting l = s.live l) ∧
      (∀ (i : Nat) (c : Caller), s.callers[i]? = some c → c.phase.live = true →
        0 < s.state.waiting c.lane) ∧
      ∀ (l : Label) (i : Nat) (lane : Lane) (now : Instant), s.Grants l i lane now →
        (∀ (j : Nat) (c : Caller), s.callers[j]? = some c → c.lane.index < lane.index →
          c.phase.live = false) ∧
        ∀ (ks ms : List Label) (k : Label) (a : Limiter) (j : Nat) (lane' : Lane) (t : Instant),
          ls = ks ++ k :: ms → Trace step (new rate) ks a → a.Grants k j lane' t →
          t + s.state.interval ≤ now := by
  have hs := run_countsExact run
  refine ⟨hs, ?_, ?_⟩
  · intro i c hi hl
    rw [hs c.lane]
    exact live_pos hi hl
  · intro l i lane now hg
    obtain ⟨c, failFast, n, -, rfl, -, -, hv⟩ := hg
    obtain ⟨-, hhigher, hslot, -, -⟩ := State.slot_granted s.state c (Prod.ext hv rfl)
    refine ⟨?_, ?_⟩
    · intro j c' hj hlt
      exact not_live_of_waiting_zero hs hj (hhigher _ (Lane.mem_higher.mpr hlt))
    · intro ks ms k a j lane' t hls hks hg'
      subst hls
      obtain ⟨b, hb, rest⟩ := run.split
      cases hb.unique hks
      cases rest with
      | cons first rest =>
          have hsince := rest.invariant (fun _ _ _ => step_grantedSince) (hg'.grantedSince first)
          obtain ⟨u, hu, htu, -⟩ := hsince
          rw [State.nextSlot, hu] at hslot
          exact Nat.le_trans (Nat.add_le_add_right htu _) hslot

/-- Two cold requests on a limiter of 2.5 requests a second, granted at 0 s and at 1 s. -/
theorem priority_spacing_two_cold :
    let ls := [.enter .cold false, .enable 0, .lock 0 ⟨0, 0⟩, .enter .cold false, .enable 1]
    0 + (replay step (new (5 / 2)) ls).state.interval ≤ fromSecs 1 := by
  intro ls
  have run : Run (5 / 2) ls _ := trace_replay (by decide +kernel)
  have grant : (replay step (new (5 / 2)) ls).Grants (.lock 1 ⟨fromSecs 1, 0⟩) 1 .cold (fromSecs 1) :=
    ⟨_, false, false, rfl, rfl, by decide +kernel, by decide +kernel, by decide +kernel⟩
  exact ((priority_spacing_and_counts run).2.2 _ _ _ _ grant).2 [.enter .cold false, .enable 0] _
    (.lock 0 ⟨0, 0⟩) _ 0 .cold 0 rfl (trace_replay (by decide +kernel))
    ⟨_, false, false, rfl, rfl, by decide +kernel, by decide +kernel, by decide +kernel⟩

end Limiter

end Quantframe.Market
