import Quantframe.Collector.Resolve
import Quantframe.Lib.Log
import Quantframe.Lib.Machine
import Quantframe.Trader.Lifecycle

/-!
# The session and the helper's heartbeat

What the trader knows of its sign-in, its websocket and the gaming PC, kept in a few variables. Each of them is
described by the history of the calls that set them.
-/

namespace Quantframe.Trader

open Lib
open Collector (days hours minutes numSeconds)
open Trades (DateTime Timestamp ts)

def tokenFreshMinutes : Int := 20

def expiryWarningDays : Int := 7

/-- Ready needs a heartbeat at most this old. -/
def readyWithinS : Int := 30

structure Session where
  signedIn : Bool
  unauthorized : Bool
  lastMeOk : Option DateTime
  wsConnected : Bool
  wsDownSince : Option DateTime
  tokenExpiresAt : Option DateTime
  lastExpiryAlert : Option DateTime

/-- The snapshot with the two times that are only shown. -/
structure SessionView extends SessionSnapshot where
  lastMeOkAt : Option Timestamp
  tokenExpiresAt : Option Timestamp

inductive SessionEvent where
  | signedIn (at_ : DateTime) (tokenExpiresAt : Option DateTime)
  | signedOut
  | meOk (at_ : DateTime)
  | unauthorized
  | ws (connected : Bool) (at_ : DateTime)
  /-- `expiry_alert_due`, with what it returned. -/
  | alertCheck (now : DateTime) (due : Option DateTime)

namespace Session

/-- `Session::default()`. -/
def fresh : Session := ⟨false, false, none, false, none, none, none⟩

def markSignedIn (s : Session) (at_ : DateTime) (tokenExpiresAt : Option DateTime) : Session :=
  { s with signedIn := true, unauthorized := false, lastMeOk := some at_, tokenExpiresAt, lastExpiryAlert := none }

def markSignedOut (s : Session) : Session :=
  { s with signedIn := false, unauthorized := false, lastMeOk := none, tokenExpiresAt := none, lastExpiryAlert := none }

def markMeOk (s : Session) (at_ : DateTime) : Session :=
  if s.signedIn then { s with lastMeOk := some at_, unauthorized := false } else s

def markUnauthorized (s : Session) : Session := { s with unauthorized := true }

def setWsConnected (s : Session) (connected : Bool) (at_ : DateTime) : Session :=
  if connected then { s with wsConnected := true, wsDownSince := none }
  else { s with wsConnected := false, wsDownSince := s.wsDownSince.or (some at_) }

def snapshot (s : Session) (now : DateTime) : SessionView where
  signedIn := s.signedIn
  tokenValid := s.signedIn && !s.unauthorized && s.lastMeOk.any fun t => decide (now - t ≤ minutes tokenFreshMinutes)
  unauthorized := s.unauthorized
  wsConnected := s.wsConnected
  wsDownForS := if s.wsConnected then none else s.wsDownSince.map fun t => numSeconds (now - t)
  lastMeOkAt := s.lastMeOk.map ts
  tokenExpiresAt := s.tokenExpiresAt.map ts

/-- The token expiry when an alert is due (expires within 7 days, none sent in 24 h). Records the alert. -/
def expiryAlertDue (s : Session) (now : DateTime) : Option DateTime × Session :=
  match s.tokenExpiresAt with
  | none => (none, s)
  | some expires =>
      if !s.signedIn || decide (expires - now > days expiryWarningDays) then (none, s)
      else if s.lastExpiryAlert.any fun t => decide (now - t < hours 24) then (none, s)
      else (some expires, { s with lastExpiryAlert := some now })

def step : Machine Session SessionEvent
  | s, .signedIn at_ expires => some (s.markSignedIn at_ expires)
  | s, .signedOut => some s.markSignedOut
  | s, .meOk at_ => some (s.markMeOk at_)
  | s, .unauthorized => some s.markUnauthorized
  | s, .ws connected at_ => some (s.setWsConnected connected at_)
  | s, .alertCheck now due => if (s.expiryAlertDue now).1 = due then some (s.expiryAlertDue now).2 else none

end Session

/-! ### What the history says -/

namespace SessionEvent

variable (log : List SessionEvent)

def SignsIn (_ : List SessionEvent) : SessionEvent → Prop
  | .signedIn _ _ => True
  | _ => False

def SignsOut (_ : List SessionEvent) : SessionEvent → Prop
  | .signedOut => True
  | _ => False

/-- Signed in, and not out since. -/
def SignedIn : Prop := Since SignsIn SignsOut log

/-- The session of before is over. -/
def Renews (before : List SessionEvent) (e : SessionEvent) : Prop := SignsIn before e ∨ SignsOut before e

/-- An answer of `/me`, which counts while signed in. -/
def AnswersAt (at_ : DateTime) (before : List SessionEvent) : SessionEvent → Prop
  | .signedIn t _ => t = at_
  | .meOk t => t = at_ ∧ SignedIn before
  | _ => False

def Clears (before : List SessionEvent) (e : SessionEvent) : Prop := SignsOut before e ∨ ∃ at_, AnswersAt at_ before e

/-- A 401, and no answer or new session since. -/
def Refused : Prop := Since (fun _ e => e = .unauthorized) Clears log

/-- The last answer is of that time. -/
def OkAt (at_ : DateTime) : Prop := Since (AnswersAt at_) Clears log

def Turns (connected : Bool) (_ : List SessionEvent) : SessionEvent → Prop
  | .ws c _ => c = connected
  | _ => False

def Connected : Prop := Since (Turns true) (Turns false) log

def Down : Prop := Since (Turns false) (Turns true) log

/-- The first disconnect since the websocket was last connected. -/
def DownSince (at_ : DateTime) : Prop := Since (fun before e => e = .ws false at_ ∧ ¬ Down before) (Turns true) log

/-- The token of the session expires then. -/
def ExpiresAt (expires : DateTime) : Prop :=
  Since (fun _ e => ∃ at_, e = .signedIn at_ (some expires)) Renews log

/-- An alert was sent at that time in this session. -/
def AlertedAt (at_ : DateTime) : Prop := Since (fun _ e => ∃ expires, e = .alertCheck at_ (some expires)) Renews log

variable {log} {e : SessionEvent} {at_ expires : DateTime}

theorem signedIn_concat : SignedIn (log ++ [e]) ↔ SignsIn log e ∨ SignedIn log ∧ ¬ SignsOut log e := since_concat

theorem refused_concat : Refused (log ++ [e]) ↔ e = .unauthorized ∨ Refused log ∧ ¬ Clears log e := since_concat

theorem okAt_concat : OkAt (log ++ [e]) at_ ↔ AnswersAt at_ log e ∨ OkAt log at_ ∧ ¬ Clears log e := since_concat

theorem connected_concat : Connected (log ++ [e]) ↔ Turns true log e ∨ Connected log ∧ ¬ Turns false log e :=
  since_concat

theorem down_concat : Down (log ++ [e]) ↔ Turns false log e ∨ Down log ∧ ¬ Turns true log e := since_concat

theorem downSince_concat : DownSince (log ++ [e]) at_ ↔
    e = .ws false at_ ∧ ¬ Down log ∨ DownSince log at_ ∧ ¬ Turns true log e := since_concat

theorem expiresAt_concat : ExpiresAt (log ++ [e]) expires ↔
    (∃ at_, e = .signedIn at_ (some expires)) ∨ ExpiresAt log expires ∧ ¬ Renews log e := since_concat

theorem alertedAt_concat : AlertedAt (log ++ [e]) at_ ↔
    (∃ expires, e = .alertCheck at_ (some expires)) ∨ AlertedAt log at_ ∧ ¬ Renews log e := since_concat

end SessionEvent

namespace Session

open SessionEvent

variable {log : List SessionEvent} {s t : Session} {e : SessionEvent}

/-- Each variable says what the history says. -/
structure Follows (log : List SessionEvent) (s : Session) : Prop where
  signedIn : s.signedIn = true ↔ SignedIn log
  unauthorized : s.unauthorized = true ↔ Refused log
  lastMeOk : ∀ at_, s.lastMeOk = some at_ ↔ OkAt log at_
  wsConnected : s.wsConnected = true ↔ Connected log
  down : s.wsDownSince.isSome = true ↔ Down log
  wsDownSince : ∀ at_, s.wsDownSince = some at_ ↔ DownSince log at_
  tokenExpiresAt : ∀ expires, s.tokenExpiresAt = some expires ↔ ExpiresAt log expires

theorem fresh_follows : Follows [] fresh where
  signedIn := by simp [fresh, SignedIn, not_since_nil]
  unauthorized := by simp [fresh, Refused, not_since_nil]
  lastMeOk at_ := by simp [fresh, OkAt, not_since_nil]
  wsConnected := by simp [fresh, Connected, not_since_nil]
  down := by simp [fresh, Down, not_since_nil]
  wsDownSince at_ := by simp [fresh, DownSince, not_since_nil]
  tokenExpiresAt expires := by simp [fresh, ExpiresAt, not_since_nil]

/-- A check of the alert changes nothing but the time of the last alert. -/
theorem expiryAlertDue_snd (s : Session) (now : DateTime) :
    (s.expiryAlertDue now).2 = { s with lastExpiryAlert := (s.expiryAlertDue now).2.lastExpiryAlert } := by
  rw [expiryAlertDue]
  split
  · rfl
  · split
    · rfl
    · split
      · rfl
      · rfl

theorem follows_step (h : Follows log s) (hstep : s.step e = some t) : Follows (log ++ [e]) t := by
  obtain ⟨hsigned, hrefused, hok, hconnected, hdown, hsince, hexpires⟩ := h
  cases e with
  | signedIn at_ expires =>
      cases hstep
      refine ⟨?_, ?_, ?_, ?_, ?_, ?_, ?_⟩
      · simp [markSignedIn, signedIn_concat, SignsIn]
      · simp [markSignedIn, refused_concat, Clears, AnswersAt]
      · intro at'
        simp [markSignedIn, okAt_concat, Clears, AnswersAt]
      · simp [markSignedIn, connected_concat, Turns, hconnected]
      · simp [markSignedIn, down_concat, Turns, hdown]
      · intro at'
        simp [markSignedIn, downSince_concat, Turns, hsince]
      · intro expires'
        simp [markSignedIn, expiresAt_concat, Renews, SignsIn]
  | signedOut =>
      cases hstep
      refine ⟨?_, ?_, ?_, ?_, ?_, ?_, ?_⟩
      · simp [markSignedOut, signedIn_concat, SignsIn, SignsOut]
      · simp [markSignedOut, refused_concat, Clears, SignsOut]
      · intro at'
        simp [markSignedOut, okAt_concat, Clears, AnswersAt, SignsOut]
      · simp [markSignedOut, connected_concat, Turns, hconnected]
      · simp [markSignedOut, down_concat, Turns, hdown]
      · intro at'
        simp [markSignedOut, downSince_concat, Turns, hsince]
      · intro expires'
        simp [markSignedOut, expiresAt_concat, Renews, SignsOut]
  | meOk at_ =>
      cases hstep
      -- an answer counts only while signed in
      by_cases hin : s.signedIn = true
      · have hcounts := hsigned.mp hin
        rw [markMeOk, if_pos hin]
        refine ⟨?_, ?_, ?_, ?_, ?_, ?_, ?_⟩
        · simp [signedIn_concat, SignsIn, SignsOut, hsigned]
        · simp [refused_concat, Clears, SignsOut, AnswersAt, hcounts]
        · intro at'
          simp [okAt_concat, Clears, SignsOut, AnswersAt, hcounts]
        · simp [connected_concat, Turns, hconnected]
        · simp [down_concat, Turns, hdown]
        · intro at'
          simp [downSince_concat, Turns, hsince]
        · intro expires'
          simp [expiresAt_concat, Renews, SignsIn, SignsOut, hexpires]
      · have hcounts := mt hsigned.mpr hin
        rw [markMeOk, if_neg hin]
        refine ⟨?_, ?_, ?_, ?_, ?_, ?_, ?_⟩
        · simp [signedIn_concat, SignsIn, SignsOut, hsigned]
        · simp [refused_concat, Clears, SignsOut, AnswersAt, hcounts, hrefused]
        · intro at'
          simp [okAt_concat, Clears, SignsOut, AnswersAt, hcounts, hok]
        · simp [connected_concat, Turns, hconnected]
        · simp [down_concat, Turns, hdown]
        · intro at'
          simp [downSince_concat, Turns, hsince]
        · intro expires'
          simp [expiresAt_concat, Renews, SignsIn, SignsOut, hexpires]
  | unauthorized =>
      cases hstep
      refine ⟨?_, ?_, ?_, ?_, ?_, ?_, ?_⟩
      · simp [markUnauthorized, signedIn_concat, SignsIn, SignsOut, hsigned]
      · simp [markUnauthorized, refused_concat]
      · intro at'
        simp [markUnauthorized, okAt_concat, Clears, SignsOut, AnswersAt, hok]
      · simp [markUnauthorized, connected_concat, Turns, hconnected]
      · simp [markUnauthorized, down_concat, Turns, hdown]
      · intro at'
        simp [markUnauthorized, downSince_concat, Turns, hsince]
      · intro expires'
        simp [markUnauthorized, expiresAt_concat, Renews, SignsIn, SignsOut, hexpires]
  | ws connected at_ =>
      cases hstep
      cases connected with
      | true =>
          refine ⟨?_, ?_, ?_, ?_, ?_, ?_, ?_⟩
          · simp [setWsConnected, signedIn_concat, SignsIn, SignsOut, hsigned]
          · simp [setWsConnected, refused_concat, Clears, SignsOut, AnswersAt, hrefused]
          · intro at'
            simp [setWsConnected, okAt_concat, Clears, SignsOut, AnswersAt, hok]
          · simp [setWsConnected, connected_concat, Turns]
          · simp [setWsConnected, down_concat, Turns]
          · intro at'
            simp [setWsConnected, downSince_concat, Turns]
          · intro expires'
            simp [setWsConnected, expiresAt_concat, Renews, SignsIn, SignsOut, hexpires]
      | false =>
          refine ⟨?_, ?_, ?_, ?_, ?_, ?_, ?_⟩
          · simp [setWsConnected, signedIn_concat, SignsIn, SignsOut, hsigned]
          · simp [setWsConnected, refused_concat, Clears, SignsOut, AnswersAt, hrefused]
          · intro at'
            simp [setWsConnected, okAt_concat, Clears, SignsOut, AnswersAt, hok]
          · simp [setWsConnected, connected_concat, Turns]
          · simp [setWsConnected, down_concat, Turns]
          · intro at'
            -- only the first disconnect sets the time
            cases hold : s.wsDownSince with
            | none =>
                have hup : ¬ Down log := by simp [← hdown, hold]
                have hnever : ¬ DownSince log at' := by simp [← hsince, hold]
                simp [setWsConnected, downSince_concat, Turns, hold, hup, hnever]
            | some since =>
                have hlasting : Down log := by simp [← hdown, hold]
                simp [setWsConnected, downSince_concat, Turns, hlasting, ← hsince, hold]
          · intro expires'
            simp [setWsConnected, expiresAt_concat, Renews, SignsIn, SignsOut, hexpires]
  | alertCheck now due =>
      have ht : t = (s.expiryAlertDue now).2 := by
        simp only [step] at hstep
        split at hstep
        · exact (Option.some.inj hstep).symm
        · cases hstep
      rw [ht, expiryAlertDue_snd]
      refine ⟨?_, ?_, ?_, ?_, ?_, ?_, ?_⟩
      · simp [signedIn_concat, SignsIn, SignsOut, hsigned]
      · simp [refused_concat, Clears, SignsOut, AnswersAt, hrefused]
      · intro at'
        simp [okAt_concat, Clears, SignsOut, AnswersAt, hok]
      · simp [connected_concat, Turns, hconnected]
      · simp [down_concat, Turns, hdown]
      · intro at'
        simp [downSince_concat, Turns, hsince]
      · intro expires'
        simp [expiresAt_concat, Renews, SignsIn, SignsOut, hexpires]

/-- A websocket that is connected is not down. -/
def Apart (s : Session) : Prop := s.wsConnected = true → s.wsDownSince = none

theorem apart_step (h : Apart s) (hstep : s.step e = some t) : Apart t := by
  cases e with
  | signedIn at_ expires | signedOut | unauthorized =>
      cases hstep
      exact h
  | meOk at_ =>
      cases hstep
      rw [markMeOk]
      split
      · exact h
      · exact h
  | ws connected at_ =>
      cases hstep
      cases connected with
      | true => exact fun _ => rfl
      | false => rintro ⟨⟩
  | alertCheck now due =>
      simp only [step] at hstep
      split at hstep
      · rw [expiryAlertDue_snd] at hstep
        cases hstep
        exact h
      · cases hstep

/-! ### The alerts -/

/-- What is kept of the alerts of this session is the time of the last. -/
structure Alerting (log : List SessionEvent) (s : Session) : Prop where
  sent : ∀ at_, s.lastExpiryAlert = some at_ → AlertedAt log at_
  latest : ∀ at_, AlertedAt log at_ → ∃ last, s.lastExpiryAlert = some last ∧ at_ ≤ last

/-- An alert is due: signed in with a token that expires within seven days, and no alert of this session in the
last day. -/
structure Due (log : List SessionEvent) (now expires : DateTime) : Prop where
  signedIn : SignedIn log
  expiresAt : ExpiresAt log expires
  soon : expires - now ≤ days expiryWarningDays
  quiet : ∀ at_, AlertedAt log at_ → hours 24 ≤ now - at_

theorem quiet_iff (h : Alerting log s) {now : DateTime} :
    (s.lastExpiryAlert.any fun t => decide (now - t < hours 24)) = false ↔
      ∀ at_, AlertedAt log at_ → hours 24 ≤ now - at_ := by
  cases hlast : s.lastExpiryAlert with
  | none =>
      refine ⟨fun _ at_ halerted => ?_, fun _ => rfl⟩
      obtain ⟨last, hsome, -⟩ := h.latest at_ halerted
      rw [hlast] at hsome
      cases hsome
  | some last =>
      rw [Option.any_some, decide_eq_false_iff_not, Int.not_lt]
      constructor
      · intro hquiet at_ halerted
        obtain ⟨last', hsome, hle⟩ := h.latest at_ halerted
        cases hlast.symm.trans hsome
        exact hquiet.trans (Int.sub_le_sub_left hle now)
      · exact fun hquiet => hquiet last (h.sent last hlast)

theorem expiryAlertDue_iff (hfollows : Follows log s) (h : Alerting log s) {now expires : DateTime} :
    (s.expiryAlertDue now).1 = some expires ↔ Due log now expires := by
  rw [expiryAlertDue]
  cases htoken : s.tokenExpiresAt with
  | none =>
      refine ⟨by rintro ⟨⟩, fun hdue => ?_⟩
      have hsome := (hfollows.tokenExpiresAt expires).mpr hdue.expiresAt
      rw [htoken] at hsome
      cases hsome
  | some token =>
      have hexpires : ∀ expires', ExpiresAt log expires' ↔ token = expires' := by
        intro expires'
        rw [← hfollows.tokenExpiresAt expires', htoken, Option.some.injEq]
      simp only
      split
      · next hlate =>
          refine ⟨by rintro ⟨⟩, fun hdue => ?_⟩
          have hin := hfollows.signedIn.mpr hdue.signedIn
          rw [hin, (hexpires expires).mp hdue.expiresAt] at hlate
          simp only [Bool.not_true, Bool.false_or, decide_eq_true_eq] at hlate
          exact absurd hdue.soon (Int.not_le.mpr hlate)
      · next hsoon =>
          simp only [Bool.or_eq_true, Bool.not_eq_true', decide_eq_true_eq, not_or, Bool.not_eq_false, Int.not_lt]
            at hsoon
          split
          · next hrecent =>
              refine ⟨by rintro ⟨⟩, fun hdue => ?_⟩
              rw [(quiet_iff h).mpr hdue.quiet] at hrecent
              cases hrecent
          · next hquiet =>
              rw [Bool.not_eq_true, quiet_iff h] at hquiet
              constructor
              · intro heq
                have htoken' := Option.some.inj heq
                exact ⟨hfollows.signedIn.mp hsoon.1, (hexpires expires).mpr htoken', htoken' ▸ hsoon.2, hquiet⟩
              · intro hdue
                rw [(hexpires expires).mp hdue.expiresAt]

theorem alerting_step (hfollows : Follows log s) (h : Alerting log s) (hstep : s.step e = some t) :
    Alerting (log ++ [e]) t := by
  cases e with
  | signedIn at_ expires | signedOut =>
      cases hstep
      constructor
      · rintro at' ⟨⟩
      · intro at' halerted
        simp [alertedAt_concat, Renews, SignsIn, SignsOut] at halerted
  | meOk at_ =>
      have hsame : t.lastExpiryAlert = s.lastExpiryAlert := by
        cases hstep
        rw [markMeOk]
        split
        · rfl
        · rfl
      constructor
      · intro at' hlast
        simpa [alertedAt_concat, Renews, SignsIn, SignsOut] using h.sent at' (hsame ▸ hlast)
      · intro at' halerted
        rw [hsame]
        exact h.latest at' (by simpa [alertedAt_concat, Renews, SignsIn, SignsOut] using halerted)
  | unauthorized =>
      cases hstep
      constructor
      · intro at' hlast
        simpa [alertedAt_concat, Renews, SignsIn, SignsOut] using h.sent at' hlast
      · intro at' halerted
        exact h.latest at' (by simpa [alertedAt_concat, Renews, SignsIn, SignsOut] using halerted)
  | ws connected at_ =>
      have hsame : t.lastExpiryAlert = s.lastExpiryAlert := by
        cases hstep
        cases connected with
        | true | false => rfl
      constructor
      · intro at' hlast
        simpa [alertedAt_concat, Renews, SignsIn, SignsOut] using h.sent at' (hsame ▸ hlast)
      · intro at' halerted
        rw [hsame]
        exact h.latest at' (by simpa [alertedAt_concat, Renews, SignsIn, SignsOut] using halerted)
  | alertCheck now due =>
      simp only [step] at hstep
      split at hstep
      · next hdue =>
          have ht : t = (s.expiryAlertDue now).2 := (Option.some.inj hstep).symm
          subst hdue ht
          cases hsent : (s.expiryAlertDue now).1 with
          | none =>
              have hsame : (s.expiryAlertDue now).2.lastExpiryAlert = s.lastExpiryAlert := by
                revert hsent
                rw [expiryAlertDue]
                cases s.tokenExpiresAt with
                | none => exact fun _ => rfl
                | some token =>
                    simp only
                    split
                    · exact fun _ => rfl
                    · split
                      · exact fun _ => rfl
                      · rintro ⟨⟩
              constructor
              · intro at' hlast
                simpa [alertedAt_concat, Renews, SignsIn, SignsOut] using h.sent at' (hsame ▸ hlast)
              · intro at' halerted
                rw [hsame]
                exact h.latest at' (by simpa [alertedAt_concat, Renews, SignsIn, SignsOut] using halerted)
          | some expires =>
              have hquiet := ((expiryAlertDue_iff hfollows h).mp hsent).quiet
              have hlast : (s.expiryAlertDue now).2.lastExpiryAlert = some now := by
                revert hsent
                rw [expiryAlertDue]
                cases s.tokenExpiresAt with
                | none => rintro ⟨⟩
                | some token =>
                    simp only
                    split
                    · rintro ⟨⟩
                    · split
                      · rintro ⟨⟩
                      · exact fun _ => rfl
              constructor
              · intro at' hat
                cases hlast.symm.trans hat
                exact alertedAt_concat.mpr (.inl ⟨expires, rfl⟩)
              · intro at' halerted
                refine ⟨now, hlast, ?_⟩
                rcases alertedAt_concat.mp halerted with ⟨_, hnow⟩ | ⟨hold, -⟩
                · cases hnow
                  exact le_refl _
                · have hday := hquiet at' hold
                  have hpos : (0 : Int) ≤ hours 24 := by decide
                  exact Int.le_of_sub_nonneg (hpos.trans hday)
      · cases hstep

/-- Every check so far sent an alert exactly when one was due. -/
def AlertedWhenDue (log : List SessionEvent) : Prop :=
  Throughout (fun before e => ∀ now due expires, e = .alertCheck now due →
    (due = some expires ↔ Due before now expires)) log

structure Alerts (log : List SessionEvent) (s : Session) : Prop where
  follows : Follows log s
  alerting : Alerting log s
  whenDue : AlertedWhenDue log

theorem fresh_alerts : Alerts [] fresh where
  follows := fresh_follows
  alerting := ⟨by rintro at_ ⟨⟩, fun at_ halerted => absurd halerted not_since_nil⟩
  whenDue := throughout_nil

theorem alerts_step (h : Alerts log s) (hstep : s.step e = some t) : Alerts (log ++ [e]) t where
  follows := follows_step h.follows hstep
  alerting := alerting_step h.follows h.alerting hstep
  whenDue := by
    refine throughout_concat.mpr ⟨h.whenDue, ?_⟩
    rintro now due expires rfl
    simp only [step] at hstep
    split at hstep
    · next hdue =>
        rw [← hdue]
        exact expiryAlertDue_iff h.follows h.alerting
    · cases hstep

/-- Over every history of sign-ins, answers and checks: a check sends an alert exactly when one is due, which is
never twice within a day of the same session. -/
theorem expiry_alerts {ls : List SessionEvent} (run : Trace Session.step fresh ls t) : AlertedWhenDue ls := by
  have hrun := run.history (fun _ _ _ _ hs hstep => alerts_step hs hstep) fresh_alerts
  exact hrun.whenDue

/-- A token that expires in four days: one alert, none an hour later, the next after a day. -/
theorem expiry_alerts_daily : AlertedWhenDue [.signedIn 0 (some (days 4)), .alertCheck 0 (some (days 4)),
    .alertCheck (hours 1) none, .alertCheck (hours 24) (some (days 4))] :=
  expiry_alerts (trace_replay (by decide))

end Session

end Quantframe.Trader
