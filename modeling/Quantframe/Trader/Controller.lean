import Quantframe.Lib.Machine
import Quantframe.Trader.Lifecycle

/-!
# The trader controller

Every call holds the lock of `inner` from its first step to its last, so at most one call is past
the lock and `awaiting` says for what it waits. Dropping that call releases the lock and nothing
else. An engine is a task of its own: dropping its handle does not end it.
-/

namespace Quantframe.Trader

open Lib
open Trades (DateTime Timestamp ts Error)

structure TraderOptions where
  dryRun : Bool
  deleteBuyOrdersOnStop : Bool
  lastStopReason : Option String
  lastStopAt : Option Timestamp
  deriving DecidableEq, Repr

/-- What the platform reports when a step asks it. -/
structure Platform where
  session : SessionSnapshot
  helper : HelperSnapshot
  gameDataLoaded : Bool
  autoDelete : Bool
  marketBlock : Option String
  deriving DecidableEq, Repr

/-- The handle of the engine that is trading; `engine` is its number among all spawned. -/
structure Running where
  engine : Nat
  startedAt : DateTime
  dryRun : Bool
  deriving DecidableEq, Repr

structure Inner where
  state : LifecycleState
  options : TraderOptions
  running : Option Running
  deriving DecidableEq, Repr

structure TraderStatus where
  state : LifecycleState
  checklist : Checklist
  options : TraderOptions
  session : SessionSnapshot
  helper : HelperSnapshot
  runningSince : Option Timestamp
  runningDryRun : Option Bool
  deriving DecidableEq, Repr

namespace Platform

def checklist (p : Platform) : Checklist where
  tokenValid := p.session.tokenValid
  wsConnected := p.session.wsConnected
  gameDataLoaded := p.gameDataLoaded
  helperConnected := p.helper.connected
  warframeRunning := p.helper.warframeRunning
  autoDeleteOff := !p.autoDelete
  marketReachable := p.marketBlock.isNone

def idleState (p : Platform) (dryRun : Bool) : LifecycleState :=
  if p.checklist.readyFor dryRun then .ready else .offline

def statusOf (p : Platform) (inner : Inner) : TraderStatus where
  state := inner.state
  checklist := p.checklist
  options := inner.options
  session := p.session
  helper := p.helper
  runningSince := inner.running.map fun r => ts r.startedAt
  runningDryRun := inner.running.map Running.dryRun

def triggerInput (p : Platform) : TriggerInput where
  signedIn := p.session.signedIn
  unauthorized := p.session.unauthorized
  wsDownForS := p.session.wsDownForS
  helperSecondsSince := p.helper.secondsSinceHeartbeat
  warframeRunning := p.helper.warframeRunning
  marketBlocked := p.marketBlock.isSome
  marketUntil := p.marketBlock.getD ""

end Platform

/-- A spawned engine. `flag` tells its loop to go on; `exit` is set once the task has finished, with
the message of a panic on the left. -/
structure Engine where
  dryRun : Bool
  flag : Bool
  exit : Option (Except String EngineExit)

/-- Which call runs `finish`. -/
inductive Caller where
  | stop
  | tick
  deriving DecidableEq, Repr

/-- What the call that holds the lock waits for. -/
inductive Await where
  /-- `start`: `set_status("ingame")`. -/
  | ingame (now : DateTime)
  /-- `finish`: the engine's handle. -/
  | join (caller : Caller) (running : Running) (reason : Option StopReason) (now : DateTime)
  /-- `finish`: `set_status("invisible")`. -/
  | invisible (caller : Caller) (running : Running) (reason : StopReason) (block : Option String)
      (now : DateTime)
  | deleteLiveBuyOrders (caller : Caller) (running : Running) (reason : StopReason) (now : DateTime)
  | recordStop (caller : Caller) (running : Running) (reason : StopReason) (now : DateTime)
  /-- `set_options`: `save_flags`. -/
  | saveFlags (next : TraderOptions)
  deriving DecidableEq, Repr

inductive Reply where
  | status (result : Except Error TraderStatus)
  | reason (reason : Option StopReason)
  | options (result : Except Error TraderOptions)

/-- A call of `delete_live_buy_orders`: for which engine, and what was known of the market. -/
structure Deletion where
  engine : Nat
  reason : StopReason
  block : Option String
  deriving DecidableEq, Repr

structure Controller where
  inner : Inner
  awaiting : Option Await
  engines : List Engine
  broadcasts : List TraderStatus
  replies : List Reply
  deletions : List Deletion

/-- The reason a stop is recorded with; none given means the engine's exit decides. -/
def reasonOf (reason : Option StopReason) (block : Option String) (exit : Except String EngineExit) :
    StopReason :=
  reason.getD <|
    match exit with
    | .ok (.critical message) => .traderCritical message
    | .ok (.orderFailures count) => .orderFailures count
    | .ok .stopped => .userStop
    | .ok .marketBlocked => .marketBlocked (block.getD "the breaker closes")
    | .error message => .traderPanic message

namespace Controller

/-- Loads the saved options and never resumes trading. -/
def new (options : TraderOptions) : Controller where
  inner := ⟨.offline, options, none⟩
  awaiting := none
  engines := []
  broadcasts := []
  replies := []
  deletions := []

def reply (s : Controller) (r : Reply) : Controller :=
  { s with awaiting := none, replies := s.replies ++ [r] }

def broadcast (s : Controller) (p : Platform) : Controller :=
  { s with broadcasts := s.broadcasts ++ [p.statusOf s.inner] }

def returnStatus (s : Controller) (p : Platform) : Controller :=
  s.reply (.status (.ok (p.statusOf s.inner)))

def engineFinished (s : Controller) (i : Nat) : Bool := s.engines[i]?.any fun e => e.exit.isSome

def spawnEngine (s : Controller) (p : Platform) (now : DateTime) : Controller :=
  let dryRun := s.inner.options.dryRun
  let s : Controller := { s with
    engines := s.engines ++ [⟨dryRun, true, none⟩]
    inner := { s.inner with running := some ⟨s.engines.length, now, dryRun⟩, state := .trading } }
  (s.broadcast p).returnStatus p

def start (s : Controller) (p : Platform) (now : DateTime) : Controller :=
  if s.inner.running.isSome then s.returnStatus p
  else if !p.checklist.readyFor s.inner.options.dryRun then
    s.reply (.status (.error ⟨"Trader:Start", "The trader is not ready; see the start checklist"⟩))
  else if !s.inner.options.dryRun then { s with awaiting := some (.ingame now) }
  else s.spawnEngine p now

/-- `stop` answers with the status, `tick` with the reason. -/
def returnFrom (s : Controller) (p : Platform) (caller : Caller) (reason : Option StopReason) :
    Controller :=
  match caller with
  | .stop => s.returnStatus p
  | .tick => s.reply (.reason reason)

/-- `finish` up to where it waits for the engine, whose handle it has taken. -/
def finish (s : Controller) (p : Platform) (caller : Caller) (reason : Option StopReason)
    (now : DateTime) : Controller :=
  match s.inner.running with
  | none => s.returnFrom p caller none
  | some running =>
      let s := { s with inner := { s.inner with running := none, state := .stopping } }.broadcast p
      { s with
        engines := s.engines.modify running.engine fun e => { e with flag := false }
        awaiting := some (.join caller running reason now) }

/-- The market block is read once the engine has ended. -/
def joined (s : Controller) (p : Platform) (caller : Caller) (running : Running)
    (reason : Option StopReason) (now : DateTime) (exit : Except String EngineExit) : Controller :=
  let block := p.marketBlock
  { s with awaiting := some (.invisible caller running (reasonOf reason block exit) block now) }

/-- Whether `set_status("invisible")` worked makes no difference. -/
def madeInvisible (s : Controller) (caller : Caller) (running : Running) (reason : StopReason)
    (block : Option String) (now : DateTime) : Controller :=
  let blocked := block.isSome || reason.isMarketBlocked
  if s.inner.options.deleteBuyOrdersOnStop && !running.dryRun && !blocked then
    { s with
      awaiting := some (.deleteLiveBuyOrders caller running reason now)
      deletions := s.deletions ++ [⟨running.engine, reason, block⟩] }
  else { s with awaiting := some (.recordStop caller running reason now) }

/-- The end of `finish`. -/
def stopped (s : Controller) (p : Platform) (caller : Caller) (reason : StopReason) (now : DateTime) :
    Controller :=
  let options := { s.inner.options with lastStopReason := some reason.describe, lastStopAt := some (ts now) }
  let s := { s with inner := { s.inner with options, state := p.idleState options.dryRun } }.broadcast p
  s.returnFrom p caller (some reason)

def stop (s : Controller) (p : Platform) (reason : StopReason) (now : DateTime) : Controller :=
  s.finish p .stop (some reason) now

def tick (s : Controller) (p : Platform) (now : DateTime) : Controller :=
  match s.inner.running with
  | none =>
      let next := p.idleState s.inner.options.dryRun
      if next ≠ s.inner.state then
        ({ s with inner := { s.inner with state := next } }.broadcast p).reply (.reason none)
      else s.reply (.reason none)
  | some running =>
      if s.engineFinished running.engine then s.finish p .tick none now
      else
        match stopTrigger p.triggerInput with
        | some reason => s.finish p .tick (some reason) now
        | none => s.reply (.reason none)

def setOptions (s : Controller) (dryRun deleteBuyOrdersOnStop : Option Bool) : Controller :=
  if s.inner.running.isSome && dryRun.any fun value => value ≠ s.inner.options.dryRun then
    s.reply (.options (.error ⟨"Trader:Options", "Stop the trader before changing dry-run"⟩))
  else
    { s with awaiting := some (.saveFlags { s.inner.options with
      dryRun := dryRun.getD s.inner.options.dryRun
      deleteBuyOrdersOnStop := deleteBuyOrdersOnStop.getD s.inner.options.deleteBuyOrdersOnStop }) }

def flagsSaved (s : Controller) (p : Platform) (next : TraderOptions) : Controller :=
  let state := if s.inner.running.isNone then p.idleState next.dryRun else s.inner.state
  ({ s with inner := { s.inner with options := next, state } }.broadcast p).reply (.options (.ok next))

/-- What the waiting call does when its wait is over; a wait for an engine ends with the engine. -/
def resume (s : Controller) (outcome : Except Error Unit) (p : Platform) : Await → Option Controller
  | .ingame now =>
      match outcome with
      | .ok () => some (s.spawnEngine p now)
      | .error e => some (s.reply (.status (.error e)))
  | .join caller running reason now =>
      (s.engines[running.engine]?.bind Engine.exit).map (s.joined p caller running reason now)
  | .invisible caller running reason block now => some (s.madeInvisible caller running reason block now)
  | .deleteLiveBuyOrders caller running reason now =>
      some { s with awaiting := some (.recordStop caller running reason now) }
  | .recordStop caller _ reason now => some (s.stopped p caller reason now)
  | .saveFlags next =>
      match outcome with
      | .ok () => some (s.flagsSaved p next)
      | .error e => some (s.reply (.options (.error e)))

/-- The first four are the moment a call gets the lock. -/
inductive Label where
  | start (p : Platform) (now : DateTime)
  | stop (p : Platform) (reason : StopReason) (now : DateTime)
  | tick (p : Platform) (now : DateTime)
  | setOptions (dryRun deleteBuyOrdersOnStop : Option Bool)
  | resume (outcome : Except Error Unit) (p : Platform)
  /-- The future of the call that holds the lock is dropped. -/
  | cancel
  /-- An engine's task finishes. -/
  | engineExits (i : Nat) (exit : Except String EngineExit)

def step : Machine Controller Label
  | s, .start p now => if s.awaiting.isNone then some (s.start p now) else none
  | s, .stop p reason now => if s.awaiting.isNone then some (s.stop p reason now) else none
  | s, .tick p now => if s.awaiting.isNone then some (s.tick p now) else none
  | s, .setOptions dryRun delete =>
      if s.awaiting.isNone then some (s.setOptions dryRun delete) else none
  | s, .resume outcome p => s.awaiting.bind (s.resume outcome p)
  | s, .cancel => if s.awaiting.isSome then some { s with awaiting := none } else none
  | s, .engineExits i exit =>
      match s.engines[i]? with
      | some ⟨_, _, none⟩ =>
          some { s with engines := s.engines.modify i fun e => { e with exit := some exit } }
      | _ => none

/-- Runs of a controller that starts with the saved options. -/
abbrev Run (options : TraderOptions) (ls : List Label) (s : Controller) : Prop :=
  Trace step (new options) ls s

end Controller

end Quantframe.Trader
