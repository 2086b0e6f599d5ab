import Quantframe.Trader.Controller
import Quantframe.Trader.Session

/-!
# The monitor over the session and the heartbeats

The controller asks a platform; here the platform is what the session and the last heartbeat say when it is asked.
Every five seconds a tick looks whether the engine may go on.
-/

namespace Quantframe.Trader.Monitor

open Lib
open Collector (numSeconds)
open Trades (DateTime Timestamp ts Error)
open SessionEvent (SignedIn Refused Connected Down DownSince)

structure Heartbeat where
  warframeRunning : Bool
  version : String

/-- A heartbeat as it was recorded. -/
structure Last where
  at_ : DateTime
  deviceName : String
  heartbeat : Heartbeat

/-- The snapshot with what is only shown. -/
structure HelperView extends HelperSnapshot where
  lastHeartbeatAt : Option Timestamp
  deviceName : Option String
  version : Option String

/-- `Presence::snapshot`. -/
def helper : Option Last → DateTime → HelperView
  | none, _ => ⟨⟨false, false, none⟩, none, none, none⟩
  | some last, now =>
      let since := max (numSeconds (now - last.at_)) 0
      ⟨⟨decide (since ≤ readyWithinS), last.heartbeat.warframeRunning, some since⟩, some (ts last.at_),
        some last.deviceName, some last.heartbeat.version⟩

/-- What the platform reads from elsewhere. -/
structure Outside where
  gameDataLoaded : Bool
  autoDelete : Bool
  marketBlock : Option String

inductive Call where
  | start
  | stop (reason : StopReason)
  | tick
  | setOptions (dryRun deleteBuyOrdersOnStop : Option Bool)
  | resume (outcome : Except Error Unit)
  | cancel
  | engineExits (i : Nat) (exit : Except String EngineExit)

def Call.label (p : Platform) (now : DateTime) : Call → Controller.Label
  | .start => .start p now
  | .stop reason => .stop p reason now
  | .tick => .tick p now
  | .setOptions dryRun delete => .setOptions dryRun delete
  | .resume outcome => .resume outcome p
  | .cancel => .cancel
  | .engineExits i exit => .engineExits i exit

/-- What has happened is kept beside what the process remembers of it. -/
structure State where
  session : Session
  presence : Option Last
  controller : Controller
  history : List SessionEvent
  heartbeats : List Last

inductive Label where
  | session (e : SessionEvent)
  | heartbeat (last : Last)
  | call (c : Call) (outside : Outside) (now : DateTime)

namespace State

def new (options : TraderOptions) : State := ⟨.fresh, none, .new options, [], []⟩

def platform (s : State) (outside : Outside) (now : DateTime) : Platform where
  session := (s.session.snapshot now).toSessionSnapshot
  helper := (Monitor.helper s.presence now).toHelperSnapshot
  gameDataLoaded := outside.gameDataLoaded
  autoDelete := outside.autoDelete
  marketBlock := outside.marketBlock

def step : Machine State Label
  | s, .session e => (s.session.step e).map fun session => { s with session, history := s.history ++ [e] }
  | s, .heartbeat last => some { s with presence := some last, heartbeats := s.heartbeats ++ [last] }
  | s, .call c outside now =>
      (Controller.step s.controller (c.label (s.platform outside now) now)).map fun controller => { s with controller }

end State

/-! ### What the process remembers -/

structure Tracked (s : State) : Prop where
  follows : Session.Follows s.history s.session
  apart : Session.Apart s.session
  presence : s.presence = s.heartbeats.getLast?

theorem new_tracked (options : TraderOptions) : Tracked (.new options) where
  follows := Session.fresh_follows
  apart := by rintro ⟨⟩
  presence := rfl

theorem tracked_step {s t : State} {l : Label} (h : Tracked s) (hstep : s.step l = some t) : Tracked t := by
  cases l with
  | session e =>
      obtain ⟨session, hsession, rfl⟩ := Option.map_eq_some_iff.mp hstep
      exact ⟨Session.follows_step h.follows hsession, Session.apart_step h.apart hsession, h.presence⟩
  | heartbeat last =>
      cases hstep
      exact ⟨h.follows, h.apart, List.getLast?_concat.symm⟩
  | call c outside now =>
      obtain ⟨controller, -, rfl⟩ := Option.map_eq_some_iff.mp hstep
      exact ⟨h.follows, h.apart, h.presence⟩

/-- Nothing of what has happened speaks against trading. -/
structure Healthy (s : State) (outside : Outside) (now : DateTime) : Prop where
  market : outside.marketBlock = none
  signedIn : SignedIn s.history
  accepted : ¬ Refused s.history
  websocket : ∀ at_, DownSince s.history at_ → numSeconds (now - at_) ≤ wsDownLimitS
  helper : ∃ last, s.heartbeats.getLast? = some last ∧ numSeconds (now - last.at_) ≤ silentAfterS ∧
    last.heartbeat.warframeRunning = true

theorem wsDownForS_any {s : State} (h : Tracked s) (outside : Outside) (now : DateTime) :
    ((s.platform outside now).session.wsDownForS.any fun d => decide (d > wsDownLimitS)) = false ↔
      ∀ at_, DownSince s.history at_ → numSeconds (now - at_) ≤ wsDownLimitS := by
  have hsince := h.follows.wsDownSince
  simp only [State.platform, Session.snapshot]
  split
  · next hconnected =>
      have hnone := h.apart hconnected
      refine ⟨fun _ at_ hdown => ?_, fun _ => rfl⟩
      rw [← hsince at_, hnone] at hdown
      cases hdown
  · cases hlast : s.session.wsDownSince with
    | none =>
        refine ⟨fun _ at_ hdown => ?_, fun _ => rfl⟩
        rw [← hsince at_, hlast] at hdown
        cases hdown
    | some at_ =>
        rw [Option.map_some, Option.any_some, decide_eq_false_iff_not, Int.not_lt]
        constructor
        · intro hle at' hdown
          rw [← hsince at', hlast] at hdown
          cases hdown
          exact hle
        · exact fun hall => hall at_ ((hsince at_).mp hlast)

theorem helper_cases {s : State} (h : Tracked s) (outside : Outside) (now : DateTime) :
    ((s.platform outside now).helper.secondsSinceHeartbeat.all fun d => decide (d > silentAfterS)) = false ∧
        (s.platform outside now).helper.warframeRunning = true ↔
      ∃ last, s.heartbeats.getLast? = some last ∧ numSeconds (now - last.at_) ≤ silentAfterS ∧
        last.heartbeat.warframeRunning = true := by
  rw [← h.presence]
  simp only [State.platform]
  cases hlast : s.presence with
  | none =>
      constructor
      · rintro ⟨⟨⟩, -⟩
      · rintro ⟨last, ⟨⟩, -⟩
  | some last =>
      have hpos : (0 : Int) ≤ silentAfterS := by decide
      simp only [helper, Option.all_some, decide_eq_false_iff_not, Int.not_lt, Int.max_le, hpos, and_true,
        Option.some.injEq, exists_eq_left']

theorem stopTrigger_iff {s : State} (h : Tracked s) (outside : Outside) (now : DateTime) :
    stopTrigger (s.platform outside now).triggerInput = none ↔ Healthy s outside now := by
  have hws := wsDownForS_any h outside now
  have hhelper := helper_cases h outside now
  have hin : (s.platform outside now).session.signedIn = true ↔ SignedIn s.history := h.follows.signedIn
  have hrefused : (s.platform outside now).session.unauthorized = true ↔ Refused s.history := h.follows.unauthorized
  have hmarket : (s.platform outside now).marketBlock = outside.marketBlock := rfl
  simp only [stopTrigger, Platform.triggerInput, hmarket]
  split
  · next hblocked =>
      refine ⟨by rintro ⟨⟩, fun hhealthy => ?_⟩
      rw [hhealthy.market] at hblocked
      cases hblocked
  · next hopen =>
      rw [Bool.not_eq_true, Option.isSome_eq_false_iff, Option.isNone_iff_eq_none] at hopen
      split
      · next hout =>
          refine ⟨by rintro ⟨⟩, fun hhealthy => ?_⟩
          rw [hin.mpr hhealthy.signedIn] at hout
          cases hout
      · next hsigned =>
          rw [Bool.not_eq_true, Bool.not_eq_false', hin] at hsigned
          split
          · next h401 => exact ⟨by rintro ⟨⟩, fun hhealthy => absurd (hrefused.mp h401) hhealthy.accepted⟩
          · next haccepted =>
              rw [hrefused] at haccepted
              split
              · next hdown =>
                  refine ⟨by rintro ⟨⟩, fun hhealthy => ?_⟩
                  rw [hws.mpr hhealthy.websocket] at hdown
                  cases hdown
              · next hup =>
                  rw [Bool.not_eq_true, hws] at hup
                  split
                  · next hsilent =>
                      refine ⟨by rintro ⟨⟩, fun hhealthy => ?_⟩
                      rw [(hhelper.mpr hhealthy.helper).1] at hsilent
                      cases hsilent
                  · next hheard =>
                      rw [Bool.not_eq_true] at hheard
                      split
                      · next hclosed =>
                          refine ⟨by rintro ⟨⟩, fun hhealthy => ?_⟩
                          rw [(hhelper.mpr hhealthy.helper).2] at hclosed
                          cases hclosed
                      · next hgame =>
                          rw [Bool.not_eq_true, Bool.not_eq_false'] at hgame
                          exact ⟨fun _ => ⟨hopen, hsigned, haccepted, hup, hhelper.mp ⟨hheard, hgame⟩⟩, fun _ => rfl⟩

/-! ### The flags of the engines -/

section Flags

open Controller (spawnEngine finish)

variable {c d : Controller}

/-- The engine was told to stop. -/
def Halted (engines : List Engine) (i : Nat) : Prop := ∃ e, engines[i]? = some e ∧ e.flag = false

theorem Halted.append {engines more : List Engine} {i : Nat} (h : Halted engines i) : Halted (engines ++ more) i := by
  obtain ⟨e, he, hflag⟩ := h
  exact ⟨e, (List.getElem?_append_left (List.getElem?_eq_some_iff.mp he).1).trans he, hflag⟩

theorem Halted.modify {engines : List Engine} {i j : Nat} {f : Engine → Engine}
    (hf : ∀ e, e.flag = false → (f e).flag = false) (h : Halted engines i) : Halted (engines.modify j f) i := by
  obtain ⟨e, he, hflag⟩ := h
  rw [Halted, List.getElem?_modify, he]
  refine ⟨_, rfl, ?_⟩
  split
  · exact hf e hflag
  · exact hflag

/-- The engine that trades is told to go on, and no other one is. -/
structure Flags (c : Controller) : Prop where
  running : ∀ r, c.inner.running = some r → ∃ e, c.engines[r.engine]? = some e ∧ e.flag = true
  only : ∀ i e, c.engines[i]? = some e → e.flag = true → ∃ r, c.inner.running = some r ∧ r.engine = i
  ingame : ∀ now, c.awaiting = some (.ingame now) → c.inner.running = none

theorem new_flags (options : TraderOptions) : Flags (.new options) where
  running r hr := by cases hr
  only i e he := by cases he
  ingame now hawaiting := by cases hawaiting

/-- A step that leaves the engines and the handle as they are. -/
theorem Flags.keep (h : Flags c) (hengines : d.engines = c.engines) (hrunning : d.inner.running = c.inner.running)
    (hawaiting : ∀ now, d.awaiting = some (.ingame now) → d.inner.running = none) : Flags d where
  running r hr := by
    rw [hengines]
    exact h.running r (hrunning ▸ hr)
  only i e he hflag := by
    rw [hrunning]
    exact h.only i e (hengines ▸ he) hflag
  ingame := hawaiting

theorem Flags.spawnEngine (h : Flags c) (hnone : c.inner.running = none) (p : Platform) (now : DateTime) :
    Flags (c.spawnEngine p now) where
  running r hr := by
    cases hr
    exact ⟨_, List.getElem?_concat_length, rfl⟩
  only i e he hflag := by
    refine ⟨_, rfl, ?_⟩
    have hspawned : (c.engines ++ [(⟨c.inner.options.dryRun, true, none⟩ : Engine)])[i]? = some e := he
    rw [List.getElem?_append] at hspawned
    split at hspawned
    · obtain ⟨r, hr, -⟩ := h.only i e hspawned hflag
      rw [hnone] at hr
      cases hr
    · next hi =>
        have hlt := (List.getElem?_eq_some_iff.mp he).1
        have hlength : i < (c.engines ++ [(⟨c.inner.options.dryRun, true, none⟩ : Engine)]).length := hlt
        rw [List.length_append, List.length_singleton] at hlength
        show c.engines.length = i
        omega
  ingame now' hawaiting := by cases hawaiting

/-- `finish` takes the handle and tells its engine to stop. -/
theorem Flags.finish (h : Flags c) (p : Platform) (caller : Caller) (reason : Option StopReason) (now : DateTime) :
    Flags (c.finish p caller reason now) := by
  rw [Controller.finish]
  cases hr : c.inner.running with
  | none =>
      cases caller with
      | stop | tick => exact h.keep rfl rfl fun now' hawaiting => by cases hawaiting
  | some r =>
      refine ⟨fun r' hr' => by (cases hr'), fun i e he hflag => ?_, fun now' hawaiting => by (cases hawaiting)⟩
      have hmodified : (c.engines.modify r.engine fun e => { e with flag := false })[i]? = some e := he
      rw [List.getElem?_modify] at hmodified
      obtain ⟨e', he', rfl⟩ := Option.map_eq_some_iff.mp hmodified
      split at hflag
      · cases hflag
      · next hother =>
          obtain ⟨r', hr', hi⟩ := h.only i e' he' hflag
          rw [hr] at hr'
          cases hr'
          exact absurd hi hother

theorem Flags.exits (h : Flags c) (i : Nat) (exit : Except String EngineExit) :
    Flags { c with engines := c.engines.modify i fun e => { e with exit := some exit } } where
  running r hr := by
    obtain ⟨e, he, hflag⟩ := h.running r hr
    show ∃ e, (c.engines.modify i fun e => { e with exit := some exit })[r.engine]? = some e ∧ e.flag = true
    rw [List.getElem?_modify, he]
    refine ⟨_, rfl, ?_⟩
    split
    · exact hflag
    · exact hflag
  only j e he hflag := by
    have hmodified : (c.engines.modify i fun e => { e with exit := some exit })[j]? = some e := he
    rw [List.getElem?_modify] at hmodified
    obtain ⟨e', he', rfl⟩ := Option.map_eq_some_iff.mp hmodified
    refine h.only j e' he' ?_
    split at hflag
    · exact hflag
    · exact hflag
  ingame := h.ingame

/-- What a step does to the engines and the handle. -/
inductive Turn (c : Controller) : Controller.Label → Controller → Prop
  | rest {l : Controller.Label} {d : Controller} : d.engines = c.engines → d.inner.running = c.inner.running →
      (∀ now, d.awaiting ≠ some (.ingame now)) → Turn c l d
  | start {p : Platform} {now : DateTime} : c.inner.running = none →
      p.checklist.readyFor c.inner.options.dryRun = true → Turn c (.start p now) (c.spawnEngine p now)
  | waits {p : Platform} {now : DateTime} : c.inner.running = none →
      p.checklist.readyFor c.inner.options.dryRun = true →
      Turn c (.start p now) { c with awaiting := some (.ingame now) }
  | began {p : Platform} {now : DateTime} {outcome : Except Error Unit} : c.awaiting = some (.ingame now) →
      Turn c (.resume outcome p) (c.spawnEngine p now)
  | finish {l : Controller.Label} (p : Platform) (caller : Caller) (reason : Option StopReason) (now : DateTime) :
      Turn c l (c.finish p caller reason now)
  | exits (i : Nat) (exit : Except String EngineExit) : Turn c (.engineExits i exit)
      { c with engines := c.engines.modify i fun e => { e with exit := some exit } }

theorem turn_start (c : Controller) (p : Platform) (now : DateTime) : Turn c (.start p now) (c.start p now) := by
  rw [Controller.start]
  split
  · exact .rest rfl rfl fun _ hingame => by cases hingame
  · next hnone =>
      rw [Bool.not_eq_true, Option.isSome_eq_false_iff, Option.isNone_iff_eq_none] at hnone
      split
      · exact .rest rfl rfl fun _ hingame => by cases hingame
      · next hready =>
          rw [Bool.not_eq_true, Bool.not_eq_false'] at hready
          split
          · exact .waits hnone hready
          · exact .start hnone hready

theorem turn_tick (c : Controller) (p : Platform) (now : DateTime) : Turn c (.tick p now) (c.tick p now) := by
  rw [Controller.tick]
  cases hr : c.inner.running with
  | none =>
      simp only
      split
      · exact .rest rfl rfl fun _ hingame => by cases hingame
      · exact .rest rfl rfl fun _ hingame => by cases hingame
  | some r =>
      simp only
      split
      · exact .finish p .tick none now
      · cases stopTrigger p.triggerInput with
        | none => exact .rest rfl rfl fun _ hingame => by cases hingame
        | some reason => exact .finish p .tick (some reason) now

theorem turn_resume {outcome : Except Error Unit} {p : Platform} {a : Await} (ha : c.awaiting = some a)
    (hresume : c.resume outcome p a = some d) : Turn c (.resume outcome p) d := by
  cases a with
  | ingame now =>
      cases outcome with
      | ok _ =>
          cases hresume
          exact .began ha
      | error e =>
          cases hresume
          exact .rest rfl rfl fun _ hingame => by cases hingame
  | join caller r reason now =>
      obtain ⟨exit, -, rfl⟩ := Option.map_eq_some_iff.mp hresume
      exact .rest rfl rfl fun _ hingame => by cases hingame
  | invisible caller r reason block now =>
      cases hresume
      rw [Controller.madeInvisible]
      split
      · exact .rest rfl rfl fun _ hingame => by cases hingame
      · exact .rest rfl rfl fun _ hingame => by cases hingame
  | deleteLiveBuyOrders caller r reason now =>
      cases hresume
      exact .rest rfl rfl fun _ hingame => by cases hingame
  | recordStop caller r reason now =>
      cases hresume
      cases caller with
      | stop | tick => exact .rest rfl rfl fun _ hingame => by cases hingame
  | saveFlags next =>
      cases outcome with
      | ok _ =>
          cases hresume
          exact .rest rfl rfl fun _ hingame => by cases hingame
      | error e =>
          cases hresume
          exact .rest rfl rfl fun _ hingame => by cases hingame

theorem turn_of_step {l : Controller.Label} (hstep : Controller.step c l = some d) : Turn c l d := by
  cases l with
  | start p now =>
      simp only [Controller.step] at hstep
      split at hstep
      · cases hstep
        exact turn_start c p now
      · cases hstep
  | stop p reason now =>
      simp only [Controller.step] at hstep
      split at hstep
      · cases hstep
        exact .finish p .stop (some reason) now
      · cases hstep
  | tick p now =>
      simp only [Controller.step] at hstep
      split at hstep
      · cases hstep
        exact turn_tick c p now
      · cases hstep
  | setOptions dryRun delete =>
      simp only [Controller.step] at hstep
      split at hstep
      · cases hstep
        rw [Controller.setOptions]
        split
        · exact .rest rfl rfl fun _ hingame => by cases hingame
        · exact .rest rfl rfl fun _ hingame => by cases hingame
      · cases hstep
  | resume outcome p =>
      obtain ⟨a, ha, hresume⟩ := Option.bind_eq_some_iff.mp hstep
      exact turn_resume ha hresume
  | cancel =>
      simp only [Controller.step] at hstep
      split at hstep
      · cases hstep
        exact .rest rfl rfl fun _ hingame => by cases hingame
      · cases hstep
  | engineExits i exit =>
      simp only [Controller.step] at hstep
      split at hstep
      · cases hstep
        exact .exits i exit
      · cases hstep

theorem flags_step (h : Flags c) {l : Controller.Label} (hstep : Controller.step c l = some d) : Flags d := by
  cases turn_of_step hstep with
  | rest hengines hrunning hawaiting =>
      exact h.keep hengines hrunning fun now hingame => absurd hingame (hawaiting now)
  | start hnone _ => exact h.spawnEngine hnone _ _
  | waits hnone _ => exact h.keep rfl rfl fun _ _ => hnone
  | began hingame => exact h.spawnEngine (h.ingame _ hingame) _ _
  | finish p caller reason now => exact h.finish p caller reason now
  | exits i exit => exact h.exits i exit

/-- An engine that was told to stop is not told to go on again. -/
theorem halted_step {l : Controller.Label} (hstep : Controller.step c l = some d) {i : Nat}
    (hhalted : Halted c.engines i) : Halted d.engines i := by
  cases turn_of_step hstep with
  | rest hengines _ _ => exact hengines ▸ hhalted
  | start _ _ | began _ => exact hhalted.append
  | waits _ _ => exact hhalted
  | finish p caller reason now =>
      rw [Controller.finish]
      cases c.inner.running with
      | none =>
          cases caller with
          | stop | tick => exact hhalted
      | some r => exact hhalted.modify fun _ _ => rfl
  | exits j exit => exact hhalted.modify fun _ hflag => hflag

end Flags

/-! ### The dead man's switch -/

structure Watched (s : State) : Prop where
  tracked : Tracked s
  flags : Flags s.controller

theorem watched_step {s t : State} {l : Label} (h : Watched s) (hstep : s.step l = some t) : Watched t := by
  refine ⟨tracked_step h.tracked hstep, ?_⟩
  cases l with
  | session e =>
      obtain ⟨session, -, rfl⟩ := Option.map_eq_some_iff.mp hstep
      exact h.flags
  | heartbeat last =>
      cases hstep
      exact h.flags
  | call c outside now =>
      obtain ⟨controller, hcall, rfl⟩ := Option.map_eq_some_iff.mp hstep
      exact flags_step h.flags hcall

theorem watched_run {options : TraderOptions} {s : State} {ls : List Label}
    (run : Trace State.step (.new options) ls s) : Watched s :=
  run.invariant (fun _ _ _ hs hstep => watched_step hs hstep) ⟨new_tracked options, new_flags options⟩

theorem halted_run {s t : State} {ls : List Label} {i : Nat} (h : Halted s.controller.engines i)
    (run : Trace State.step s ls t) : Halted t.controller.engines i := by
  induction run with
  | nil s => exact h
  | @cons s m t l ls first _ ih =>
      apply ih
      cases l with
      | session e =>
          obtain ⟨session, -, rfl⟩ := Option.map_eq_some_iff.mp first
          exact h
      | heartbeat last =>
          cases first
          exact h
      | call c outside now =>
          obtain ⟨controller, hcall, rfl⟩ := Option.map_eq_some_iff.mp first
          exact halted_step hcall h

/-- Over every history of sign-ins, disconnects, heartbeats and calls: only the trading engine is ever told to go on.
A tick lets it go on exactly when the market is open, the session stands without a 401, the websocket is not down for
more than a minute, and the last heartbeat is at most a minute old and reports the game running; otherwise the engine
is told to stop and stays so, whatever happens later. -/
theorem dead_mans_switch {options : TraderOptions} {s m t : State} {before after : List Label}
    (run : Trace State.step (.new options) before s) {r : Running} (hr : s.controller.inner.running = some r)
    (hgoing : s.controller.engineFinished r.engine = false) {outside : Outside} {now : DateTime}
    (tick : s.step (.call .tick outside now) = some m) (later : Trace State.step m after t) :
    (∀ i e, t.controller.engines[i]? = some e → e.flag = true →
      ∃ r', t.controller.inner.running = some r' ∧ r'.engine = i) ∧
    (Healthy s outside now → m.controller.inner.running = some r ∧
      ∃ e, m.controller.engines[r.engine]? = some e ∧ e.flag = true) ∧
    (¬ Healthy s outside now → Halted t.controller.engines r.engine) := by
  have hwatched := watched_run run
  have hm := watched_step hwatched tick
  have ht := later.invariant (fun _ _ _ hs hstep => watched_step hs hstep) hm
  have htrigger := stopTrigger_iff hwatched.tracked outside now
  obtain ⟨controller, hcall, rfl⟩ := Option.map_eq_some_iff.mp tick
  have htick : controller = s.controller.tick (s.platform outside now) now := by
    simp only [Call.label, Controller.step] at hcall
    split at hcall
    · exact (Option.some.inj hcall).symm
    · cases hcall
  refine ⟨ht.flags.only, fun hhealthy => ?_, fun hsick => ?_⟩
  · have hkept : controller = s.controller.reply (.reason none) := by
      rw [htick, Controller.tick, hr]
      simp only [hgoing, htrigger.mpr hhealthy, Bool.false_eq_true, if_false]
    refine ⟨?_, ?_⟩
    · rw [hkept]
      exact hr
    · rw [hkept]
      exact hwatched.flags.running r hr
  · obtain ⟨reason, hreason⟩ := Option.ne_none_iff_exists'.mp (mt htrigger.mp hsick)
    have hstopped : controller = s.controller.finish (s.platform outside now) .tick (some reason) now := by
      rw [htick, Controller.tick, hr]
      simp only [hgoing, hreason, Bool.false_eq_true, if_false]
    obtain ⟨e, he, -⟩ := hwatched.flags.running r hr
    have hhalted : Halted controller.engines r.engine := by
      rw [hstopped, Controller.finish, hr]
      show Halted (s.controller.engines.modify r.engine fun e => { e with flag := false }) r.engine
      rw [Halted, List.getElem?_modify, he]
      exact ⟨{ e with flag := false }, by simp, rfl⟩
    exact halted_run hhalted later

/-! #### A helper that falls silent -/

def outsideQuiet : Outside := ⟨true, false, none⟩

def dryTrading : List Label :=
  [.session (.signedIn 0 none), .session (.ws true 0), .heartbeat ⟨0, "gaming-pc", ⟨true, "0.1.0"⟩⟩,
    .call .start outsideQuiet 0]

def trading : State := replay State.step (.new ⟨true, false, none, none⟩) dryTrading

/-- After 61 seconds without a heartbeat the engine is told to stop. -/
theorem dead_mans_switch_silent :
    Halted (replay State.step trading [.call .tick outsideQuiet (Trades.seconds 61)]).controller.engines 0 := by
  have hrun : Trace State.step (.new ⟨true, false, none, none⟩) dryTrading trading := trace_replay rfl
  have hsilent : ¬ Healthy trading outsideQuiet (Trades.seconds 61) := by
    rintro ⟨-, -, -, -, last, hlast, hage, -⟩
    cases hlast
    exact absurd hage (by decide)
  have htick : trading.step (.call .tick outsideQuiet (Trades.seconds 61)) =
      some (replay State.step trading [.call .tick outsideQuiet (Trades.seconds 61)]) := rfl
  exact (dead_mans_switch hrun rfl rfl htick (.nil _)).2.2 hsilent

/-! ### The checklist of a start -/

/-- Everything a start needs has happened, and is not too long ago. -/
structure Ready (s : State) (outside : Outside) (now : DateTime) (dryRun : Bool) : Prop where
  signedIn : SignedIn s.history
  accepted : ¬ Refused s.history
  fresh : ∃ at_, SessionEvent.OkAt s.history at_ ∧ now - at_ ≤ Collector.minutes tokenFreshMinutes
  websocket : Connected s.history
  helper : ∃ last, s.heartbeats.getLast? = some last ∧ numSeconds (now - last.at_) ≤ readyWithinS ∧
    last.heartbeat.warframeRunning = true
  gameData : outside.gameDataLoaded = true
  market : outside.marketBlock = none
  autoDelete : dryRun = true ∨ outside.autoDelete = false

theorem ready_of_readyFor {s : State} (h : Tracked s) {outside : Outside} {now : DateTime} {dryRun : Bool}
    (hready : (s.platform outside now).checklist.readyFor dryRun = true) : Ready s outside now dryRun := by
  simp only [Checklist.readyFor, Checklist.ready, Platform.checklist, State.platform, Session.snapshot,
    Bool.and_eq_true, Bool.or_eq_true, Bool.not_eq_true'] at hready
  obtain ⟨⟨⟨⟨⟨⟨⟨⟨hin, haccepted⟩, hfresh⟩, hws⟩, hdata⟩, hconnected⟩, hgame⟩, hmarket⟩, hdelete⟩ := hready
  refine ⟨h.follows.signedIn.mp hin, ?_, ?_, h.follows.wsConnected.mp hws, ?_, hdata,
    Option.isNone_iff_eq_none.mp hmarket, hdelete⟩
  · intro hrefused
    rw [h.follows.unauthorized.mpr hrefused] at haccepted
    cases haccepted
  · cases hok : s.session.lastMeOk with
    | none =>
        rw [hok] at hfresh
        cases hfresh
    | some at_ =>
        rw [hok] at hfresh
        exact ⟨at_, (h.follows.lastMeOk at_).mp hok, of_decide_eq_true hfresh⟩
  · rw [← h.presence]
    cases hlast : s.presence with
    | none =>
        rw [hlast] at hgame
        cases hgame
    | some last =>
        rw [hlast] at hconnected hgame
        have hage := of_decide_eq_true hconnected
        exact ⟨last, rfl, (Int.max_le.mp hage).1, hgame⟩

def Label.isStart : Label → Bool
  | .call .start _ _ => true
  | _ => false

/-- The call that a start has come to: it found everything ready and `n` engines, and holds the lock. -/
structure Starting (options : TraderOptions) (before : List Label) (s : State) (outside : Outside) (now : DateTime)
    (during : List Label) (t : State) (n : Nat) (dryRun : Bool) : Prop where
  run : Trace State.step (.new options) before s
  count : s.controller.engines.length = n
  ready : Ready s outside now dryRun
  call : Trace State.step s (.call .start outside now :: during) t
  only : ∀ l ∈ during, l.isStart = false

/-- The call the engine comes from: no engine `n` was there when it was made, it is there afterwards, and no other
start was called in between. That call found everything ready. -/
def StartedReady (options : TraderOptions) (ls : List Label) (n : Nat) (dryRun : Bool) : Prop :=
  ∃ before s outside now during t after, ls = before ++ .call .start outside now :: (during ++ after) ∧
    Starting options before s outside now during t n dryRun ∧ t.controller.engines.length = n + 1

theorem StartedReady.concat {options : TraderOptions} {ls : List Label} {n : Nat} {dryRun : Bool}
    (h : StartedReady options ls n dryRun) (l : Label) : StartedReady options (ls ++ [l]) n dryRun := by
  obtain ⟨before, s, outside, now, during, t, after, rfl, hstarting⟩ := h
  exact ⟨before, s, outside, now, during, t, after ++ [l], by simp, hstarting⟩

/-- A start that waits for the status. -/
def Waiting (options : TraderOptions) (ls : List Label) (t : State) : Prop :=
  ∃ before s outside now during, ls = before ++ .call .start outside now :: during ∧
    Starting options before s outside now during t t.controller.engines.length t.controller.inner.options.dryRun

/-- Another step while the call holds the lock. -/
theorem Starting.concat {options : TraderOptions} {before during : List Label} {s t t' : State} {outside : Outside}
    {now : DateTime} {n : Nat} {dryRun : Bool} (h : Starting options before s outside now during t n dryRun) {l : Label}
    (hstep : t.step l = some t') (hother : l.isStart = false) :
    Starting options before s outside now (during ++ [l]) t' n dryRun where
  run := h.run
  count := h.count
  ready := h.ready
  call := h.call.append (.single hstep)
  only l' hl' := by
    rcases List.mem_append.mp hl' with hold | hnew
    · exact h.only l' hold
    · exact (List.mem_singleton.mp hnew) ▸ hother

theorem Waiting.concat {options : TraderOptions} {ls : List Label} {t t' : State} (h : Waiting options ls t) {l : Label}
    (hstep : t.step l = some t') (hother : l.isStart = false)
    (hcount : t'.controller.engines.length = t.controller.engines.length)
    (hmode : t'.controller.inner.options.dryRun = t.controller.inner.options.dryRun) :
    Waiting options (ls ++ [l]) t' := by
  obtain ⟨before, s, outside, now, during, rfl, hstarting⟩ := h
  refine ⟨before, s, outside, now, during ++ [l], by simp, ?_⟩
  rw [hcount, hmode]
  exact hstarting.concat hstep hother

/-- What is known of the engines, and of a start that waits for the status. -/
structure Begun (options : TraderOptions) (ls : List Label) (s : State) : Prop where
  run : Trace State.step (.new options) ls s
  engines : ∀ n e, s.controller.engines[n]? = some e → StartedReady options ls n e.dryRun
  waiting : ∀ now, s.controller.awaiting = some (.ingame now) → Waiting options ls s

theorem dryRun_of_getElem?_modify {engines : List Engine} {i n : Nat} {f : Engine → Engine}
    (hf : ∀ e, (f e).dryRun = e.dryRun) {e : Engine} (h : (engines.modify i f)[n]? = some e) :
    ∃ e', engines[n]? = some e' ∧ e'.dryRun = e.dryRun := by
  rw [List.getElem?_modify] at h
  obtain ⟨e', he', rfl⟩ := Option.map_eq_some_iff.mp h
  refine ⟨e', he', ?_⟩
  split
  · exact (hf e').symm
  · rfl

theorem dryRun_of_getElem?_spawnEngine {c : Controller} {p : Platform} {now : DateTime} {n : Nat} {e : Engine}
    (h : (c.spawnEngine p now).engines[n]? = some e) :
    c.engines[n]? = some e ∨ n = c.engines.length ∧ e.dryRun = c.inner.options.dryRun := by
  have hnew : (c.engines ++ [(⟨c.inner.options.dryRun, true, none⟩ : Engine)])[n]? = some e := h
  rw [List.getElem?_append] at hnew
  split at hnew
  · exact .inl hnew
  · next hn =>
      have hlast : n = c.engines.length := by
        have hlt := (List.getElem?_eq_some_iff.mp hnew).1
        rw [List.length_singleton] at hlt
        omega
      rw [hlast, Nat.sub_self] at hnew
      cases hnew
      exact .inr ⟨hlast, rfl⟩

/-- A start that is called now, and waits or has its engine. -/
theorem starting_now {options : TraderOptions} {ls : List Label} {s t : State} {outside : Outside} {now : DateTime}
    (hrun : Trace State.step (.new options) ls s) (hstep : s.step (.call .start outside now) = some t)
    (hready : (s.platform outside now).checklist.readyFor s.controller.inner.options.dryRun = true) :
    Starting options ls s outside now [] t s.controller.engines.length s.controller.inner.options.dryRun where
  run := hrun
  count := rfl
  ready := ready_of_readyFor (watched_run hrun).tracked hready
  call := .single hstep
  only l hl := by cases hl

/-- The calls leave every engine in its mode; a new one comes from a start. -/
theorem begun_call {options : TraderOptions} {ls : List Label} {s : State} (h : Begun options ls s) {call : Call}
    {outside : Outside} {now : DateTime} {d : Controller}
    (hstep : s.step (.call call outside now) = some { s with controller := d })
    (hturn : Turn s.controller (call.label (s.platform outside now) now) d) :
    (∀ n e, d.engines[n]? = some e → StartedReady options (ls ++ [.call call outside now]) n e.dryRun) ∧
      ∀ now', d.awaiting = some (.ingame now') →
        Waiting options (ls ++ [.call call outside now]) { s with controller := d } := by
  have hold : ∀ n e, s.controller.engines[n]? = some e →
      StartedReady options (ls ++ [.call call outside now]) n e.dryRun :=
    fun n e he => (h.engines n e he).concat _
  have hmodified : ∀ {i : Nat} {f : Engine → Engine}, (∀ e, (f e).dryRun = e.dryRun) →
      ∀ n e, (s.controller.engines.modify i f)[n]? = some e →
        StartedReady options (ls ++ [.call call outside now]) n e.dryRun := by
    intro i f hf n e he
    obtain ⟨e', he', hmode⟩ := dryRun_of_getElem?_modify hf he
    exact hmode ▸ hold n e' he'
  have hspawned : ∀ p at_, StartedReady options (ls ++ [.call call outside now]) s.controller.engines.length
      s.controller.inner.options.dryRun → ∀ n e, (s.controller.spawnEngine p at_).engines[n]? = some e →
        StartedReady options (ls ++ [.call call outside now]) n e.dryRun := by
    intro p at_ hready n e he
    rcases dryRun_of_getElem?_spawnEngine he with hbefore | ⟨hlast, hmode⟩
    · exact hold n e hbefore
    · rw [hlast, hmode]
      exact hready
  generalize hlabel : call.label (s.platform outside now) now = l at hturn
  cases hturn with
  | rest hsame _ hnot =>
      rw [hsame]
      exact ⟨hold, fun now' hingame => absurd hingame (hnot now')⟩
  | start hnone hready =>
      cases call with
      | start =>
          cases hlabel
          have hstarting := starting_now h.run hstep hready
          refine ⟨hspawned _ _ ⟨ls, s, outside, now, [], _, [], rfl, hstarting, ?_⟩, by rintro now' ⟨⟩⟩
          exact List.length_append
      | stop _ | tick | setOptions _ _ | resume _ | cancel | engineExits _ _ => cases hlabel
  | waits hnone hready =>
      cases call with
      | start =>
          cases hlabel
          exact ⟨hold, fun _ _ => ⟨ls, s, outside, now, [], rfl, starting_now h.run hstep hready⟩⟩
      | stop _ | tick | setOptions _ _ | resume _ | cancel | engineExits _ _ => cases hlabel
  | began hingame =>
      cases call with
      | resume outcome =>
          obtain ⟨before, s₀, outside₀, now₀, during, hls, hstarting⟩ := h.waiting _ hingame
          refine ⟨hspawned _ _ ⟨before, s₀, outside₀, now₀, during ++ [_], _, [], ?_, hstarting.concat hstep rfl, ?_⟩,
            by rintro now' ⟨⟩⟩
          · rw [hls, List.append_nil, List.append_assoc, List.cons_append]
          · exact List.length_append
      | start | stop _ | tick | setOptions _ _ | cancel | engineExits _ _ => cases hlabel
  | finish p caller reason at_ =>
      rw [Controller.finish]
      cases s.controller.inner.running with
      | none =>
          cases caller with
          | stop | tick => exact ⟨hold, by rintro now' ⟨⟩⟩
      | some r => exact ⟨hmodified fun _ => rfl, by rintro now' ⟨⟩⟩
  | exits i exit =>
      refine ⟨hmodified fun _ => rfl, fun now' hingame => ?_⟩
      cases call with
      | engineExits i' exit' =>
          exact (h.waiting now' hingame).concat hstep rfl (List.length_modify ..) rfl
      | start | stop _ | tick | setOptions _ _ | resume _ | cancel => cases hlabel

theorem begun_step {options : TraderOptions} {ls : List Label} {s t : State} {l : Label} (h : Begun options ls s)
    (hstep : s.step l = some t) : Begun options (ls ++ [l]) t := by
  have hrun := h.run.append (.single hstep)
  cases l with
  | session e =>
      obtain ⟨session, -, rfl⟩ := Option.map_eq_some_iff.mp hstep
      exact ⟨hrun, fun n e he => (h.engines n e he).concat _,
        fun now hingame => (h.waiting now hingame).concat hstep rfl rfl rfl⟩
  | heartbeat last =>
      have hsame := hstep
      cases hstep
      exact ⟨hrun, fun n e he => (h.engines n e he).concat _,
        fun now hingame => (h.waiting now hingame).concat hsame rfl rfl rfl⟩
  | call c outside now =>
      have hsame := hstep
      obtain ⟨controller, hcall, rfl⟩ := Option.map_eq_some_iff.mp hstep
      obtain ⟨hengines, hwaiting⟩ := begun_call h hsame (turn_of_step hcall)
      exact ⟨hrun, hengines, hwaiting⟩

/-- No engine trades, not even dry, that was not started with every item of the checklist fulfilled: whatever happened
before, the start call it comes from found a session without a 401 that the market confirmed within twenty minutes, a
websocket that is connected, a heartbeat of the last half minute with the game running, the game data and an open
market; and a live one found auto-delete off. -/
theorem starts_ready {options : TraderOptions} {s : State} {ls : List Label}
    (run : Trace State.step (.new options) ls s) :
    ∀ n e, s.controller.engines[n]? = some e → StartedReady options ls n e.dryRun := by
  have hinit : Begun options [] (.new options) := ⟨.nil _, by rintro n e ⟨⟩, by rintro now ⟨⟩⟩
  have hbegun := run.history (fun _ _ _ _ hs hstep => begun_step hs hstep) hinit
  exact hbegun.engines

/-- The dry run above was started when everything was ready. -/
theorem starts_ready_dry : StartedReady ⟨true, false, none, none⟩ dryTrading 0 true := by
  have hrun : Trace State.step (.new ⟨true, false, none, none⟩) dryTrading trading := trace_replay rfl
  exact starts_ready hrun 0 ⟨true, true, none⟩ rfl

end Quantframe.Trader.Monitor
