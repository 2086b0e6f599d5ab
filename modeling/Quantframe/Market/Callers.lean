import Quantframe.Lib.Machine
import Quantframe.Market.Limiter

/-!
# Concurrent callers of the limiter

`wait_for_slot` is split at every point where the lock is released or another task may run. A
`notify_waiters` call follows the locked section it belongs to without the lock, so a call that
is still to be made is counted in `owed`.
-/

namespace Quantframe.Market
open Quantframe.Lib

/-- Where a caller of `wait_for_slot` stands. -/
inductive Phase where
  /-- At the head of the loop. -/
  | entered
  /-- `Notified` is enabled, the lock not yet taken. -/
  | enabled (notified : Bool)
  | parked (wakeAt : Option Instant) (notified : Bool)
  /-- Refused or dropped, its `Waiting` guard not yet run. -/
  | leaving
  | finished (granted : Bool)
  deriving DecidableEq, Repr

/-- Entered, and neither granted, refused nor dropped. -/
def Phase.live : Phase → Bool
  | .finished _ => false
  | _ => true

/-- `notify_waiters` reaches every `Notified` that is enabled. -/
def Phase.notify : Phase → Phase
  | .enabled _ => .enabled true
  | .parked wakeAt _ => .parked wakeAt true
  | p => p

structure Caller where
  lane : Lane
  failFast : Bool
  phase : Phase
  deriving DecidableEq, Repr

def Caller.notify (c : Caller) : Caller := { c with phase := c.phase.notify }

structure Limiter where
  state : State
  owed : Nat
  callers : List Caller
  /-- The last reading of the monotonic clock. -/
  clock : Instant

inductive Label where
  | enter (lane : Lane) (failFast : Bool)
  | enable (i : Nat)
  | lock (i : Nat) (c : Clock)
  | wake (i : Nat) (now : Instant)
  | cancel (i : Nat)
  | dropGuard (i : Nat)
  | notifyWaiters
  | report (outcome : Outcome) (c : Clock)
  | setRatePerSecond (rate : Rat)
  | isBlocked (c : Clock)
  | snapshot (c : Clock)

namespace Limiter

def new (ratePerSecond : Rat) : Limiter where
  state := .new ratePerSecond
  owed := 0
  callers := []
  clock := 0

def put (s : Limiter) (i : Nat) (c : Caller) : Limiter := { s with callers := s.callers.set i c }

/-- The sleep is over or the notification has arrived. -/
def mayWake (wakeAt : Option Instant) (notified : Bool) (now : Instant) : Bool :=
  notified || wakeAt.any fun t => t ≤ now

def step (s : Limiter) : Label → Option Limiter
  | .enter lane failFast =>
      some { s with
        state := s.state.enter lane
        callers := s.callers ++ [⟨lane, failFast, .entered⟩] }
  | .enable i =>
      match s.callers[i]? with
      | some ⟨lane, failFast, .entered⟩ => some (s.put i ⟨lane, failFast, .enabled false⟩)
      | _ => none
  | .lock i c =>
      match s.callers[i]? with
      | some ⟨lane, failFast, .enabled notified⟩ =>
          if s.clock ≤ c.now then
            match s.state.slot lane failFast c with
            | (.refused _, state) =>
                some { s.put i ⟨lane, failFast, .leaving⟩ with state, clock := c.now }
            | (.park wakeAt, state) =>
                some { s.put i ⟨lane, failFast, .parked wakeAt notified⟩ with state, clock := c.now }
            | (.granted, state) =>
                some { s.put i ⟨lane, failFast, .finished true⟩ with
                  state, clock := c.now, owed := s.owed + 1 }
          else none
      | _ => none
  | .wake i now =>
      match s.callers[i]? with
      | some ⟨lane, failFast, .parked wakeAt notified⟩ =>
          if s.clock ≤ now ∧ mayWake wakeAt notified now then
            some { s.put i ⟨lane, failFast, .entered⟩ with clock := now }
          else none
      | _ => none
  | .cancel i =>
      match s.callers[i]? with
      | some ⟨lane, failFast, .parked _ _⟩ => some (s.put i ⟨lane, failFast, .leaving⟩)
      | _ => none
  | .dropGuard i =>
      match s.callers[i]? with
      | some ⟨lane, failFast, .leaving⟩ =>
          some { s.put i ⟨lane, failFast, .finished false⟩ with
            state := s.state.leave lane, owed := s.owed + 1 }
      | _ => none
  | .notifyWaiters =>
      if 0 < s.owed then
        some { s with owed := s.owed - 1, callers := s.callers.map Caller.notify }
      else none
  | .report outcome c =>
      if s.clock ≤ c.now then
        let (state, notifies) := s.state.report outcome c
        some { s with state, owed := if notifies then s.owed + 1 else s.owed, clock := c.now }
      else none
  | .setRatePerSecond rate =>
      some { s with state := s.state.setRatePerSecond rate, owed := s.owed + 1 }
  | .isBlocked c =>
      if s.clock ≤ c.now then some { s with state := (s.state.isBlocked c).2, clock := c.now }
      else none
  | .snapshot c =>
      if s.clock ≤ c.now then some { s with state := (s.state.snapshot c).2, clock := c.now }
      else none

/-- The enabled steps, one constructor for each thing that can happen. -/
inductive Step (s : Limiter) : Label → Limiter → Prop
  | enter (lane failFast) : Step s (.enter lane failFast)
      { s with state := s.state.enter lane, callers := s.callers ++ [⟨lane, failFast, .entered⟩] }
  | enable {i lane failFast} (h : s.callers[i]? = some ⟨lane, failFast, .entered⟩) :
      Step s (.enable i) (s.put i ⟨lane, failFast, .enabled false⟩)
  | refuse {i c lane failFast n e state} (hc : s.clock ≤ c.now)
      (h : s.callers[i]? = some ⟨lane, failFast, .enabled n⟩)
      (hv : s.state.slot lane failFast c = (.refused e, state)) :
      Step s (.lock i c) { s.put i ⟨lane, failFast, .leaving⟩ with state, clock := c.now }
  | park {i c lane failFast n wakeAt state} (hc : s.clock ≤ c.now)
      (h : s.callers[i]? = some ⟨lane, failFast, .enabled n⟩)
      (hv : s.state.slot lane failFast c = (.park wakeAt, state)) :
      Step s (.lock i c) { s.put i ⟨lane, failFast, .parked wakeAt n⟩ with state, clock := c.now }
  | grant {i c lane failFast n state} (hc : s.clock ≤ c.now)
      (h : s.callers[i]? = some ⟨lane, failFast, .enabled n⟩)
      (hv : s.state.slot lane failFast c = (.granted, state)) :
      Step s (.lock i c) { s.put i ⟨lane, failFast, .finished true⟩ with
        state, clock := c.now, owed := s.owed + 1 }
  | wake {i now lane failFast wakeAt n} (hc : s.clock ≤ now)
      (h : s.callers[i]? = some ⟨lane, failFast, .parked wakeAt n⟩)
      (hw : mayWake wakeAt n now = true) :
      Step s (.wake i now) { s.put i ⟨lane, failFast, .entered⟩ with clock := now }
  | cancel {i lane failFast wakeAt n} (h : s.callers[i]? = some ⟨lane, failFast, .parked wakeAt n⟩) :
      Step s (.cancel i) (s.put i ⟨lane, failFast, .leaving⟩)
  | dropGuard {i lane failFast} (h : s.callers[i]? = some ⟨lane, failFast, .leaving⟩) :
      Step s (.dropGuard i) { s.put i ⟨lane, failFast, .finished false⟩ with
        state := s.state.leave lane, owed := s.owed + 1 }
  | notifyWaiters (h : 0 < s.owed) : Step s .notifyWaiters
      { s with owed := s.owed - 1, callers := s.callers.map Caller.notify }
  | report {c} (outcome) (hc : s.clock ≤ c.now) : Step s (.report outcome c)
      { s with
        state := (s.state.report outcome c).1
        owed := if (s.state.report outcome c).2 then s.owed + 1 else s.owed
        clock := c.now }
  | setRatePerSecond (rate) : Step s (.setRatePerSecond rate)
      { s with state := s.state.setRatePerSecond rate, owed := s.owed + 1 }
  | isBlocked {c} (hc : s.clock ≤ c.now) : Step s (.isBlocked c)
      { s with state := s.state.expireLostProbe c, clock := c.now }
  | snapshot {c} (hc : s.clock ≤ c.now) : Step s (.snapshot c)
      { s with state := s.state.expireLostProbe c, clock := c.now }

theorem step_cases {s t : Limiter} {l : Label} (h : s.step l = some t) : Step s l t := by
  cases l with
  | enter lane failFast => cases h; exact .enter lane failFast
  | enable i =>
      simp only [step] at h
      split at h
      · next hi => cases h; exact .enable hi
      · cases h
  | lock i c =>
      simp only [step] at h
      split at h
      · next hi =>
          split at h
          · next hc =>
              split at h
              · next hv => cases h; exact .refuse hc hi hv
              · next hv => cases h; exact .park hc hi hv
              · next hv => cases h; exact .grant hc hi hv
          · cases h
      · cases h
  | wake i now =>
      simp only [step] at h
      split at h
      · next hi =>
          split at h
          · next hw => cases h; exact .wake hw.1 hi hw.2
          · cases h
      · cases h
  | cancel i =>
      simp only [step] at h
      split at h
      · next hi => cases h; exact .cancel hi
      · cases h
  | dropGuard i =>
      simp only [step] at h
      split at h
      · next hi => cases h; exact .dropGuard hi
      · cases h
  | notifyWaiters =>
      simp only [step] at h
      split at h
      · next ho => cases h; exact .notifyWaiters ho
      · cases h
  | report outcome c =>
      simp only [step] at h
      split at h
      · next hc => cases h; exact .report outcome hc
      · cases h
  | setRatePerSecond rate => cases h; exact .setRatePerSecond rate
  | isBlocked c =>
      simp only [step] at h
      split at h
      · next hc => cases h; exact .isBlocked hc
      · cases h
  | snapshot c =>
      simp only [step] at h
      split at h
      · next hc => cases h; exact .snapshot hc
      · cases h

/-- Runs of the limiter from a fresh one. -/
abbrev Run (ratePerSecond : Rat) (ls : List Label) (s : Limiter) : Prop :=
  Trace step (new ratePerSecond) ls s

/-- Step `l` grants the request of caller `i` in `lane` at time `now`. -/
def Grants (s : Limiter) (l : Label) (i : Nat) (lane : Lane) (now : Instant) : Prop :=
  ∃ c failFast n, l = .lock i c ∧ now = c.now ∧ s.clock ≤ c.now ∧
    s.callers[i]? = some ⟨lane, failFast, .enabled n⟩ ∧
    (s.state.slot lane failFast c).1 = .granted

theorem Grants.next {s t : Limiter} {l : Label} {i : Nat} {lane : Lane} {now : Instant}
    (hg : s.Grants l i lane now) (h : step s l = some t) :
    ∃ c failFast, c.now = now ∧ s.state.slot lane failFast c = (.granted, t.state) ∧
      t.clock = now ∧ t.callers = s.callers.set i ⟨lane, failFast, .finished true⟩ := by
  obtain ⟨c, failFast, n, rfl, rfl, hc, hi, hv⟩ := hg
  have hslot : s.state.slot lane failFast c = (.granted, (s.state.slot lane failFast c).2) :=
    Prod.ext hv rfl
  simp only [step, hi, if_pos hc] at h
  rw [hslot] at h
  cases h
  exact ⟨c, failFast, rfl, hslot, rfl, rfl⟩

end Limiter

end Quantframe.Market
