import Quantframe.Trades.Types

/-!
# Lifecycle rules of the trader

The start checklist and the stop triggers, as pure functions of what the platform reports.
-/

namespace Quantframe.Trader

inductive LifecycleState where
  | offline
  | ready
  | trading
  | stopping
  deriving DecidableEq, Repr

structure SessionSnapshot where
  signedIn : Bool
  tokenValid : Bool
  unauthorized : Bool
  wsConnected : Bool
  wsDownForS : Option Int
  deriving DecidableEq, Repr

structure HelperSnapshot where
  connected : Bool
  warframeRunning : Bool
  secondsSinceHeartbeat : Option Int
  deriving DecidableEq, Repr

structure Checklist where
  tokenValid : Bool
  wsConnected : Bool
  gameDataLoaded : Bool
  helperConnected : Bool
  warframeRunning : Bool
  autoDeleteOff : Bool
  marketReachable : Bool
  deriving DecidableEq, Repr

namespace Checklist

/-- The six items every start needs. -/
def ready (c : Checklist) : Bool :=
  c.tokenValid && c.wsConnected && c.gameDataLoaded && c.helperConnected && c.warframeRunning &&
    c.marketReachable

/-- A live start also needs `auto_delete` off. -/
def readyFor (c : Checklist) (dryRun : Bool) : Bool := c.ready && (dryRun || c.autoDeleteOff)

end Checklist

inductive StopReason where
  | userStop
  | signedOut
  | unauthorized
  | websocketDown
  | helperSilent
  | warframeClosed
  | traderCritical (message : String)
  | orderFailures (count : Nat)
  | traderPanic (message : String)
  /-- The market breaker is open or probing; carries when it may close. -/
  | marketBlocked (until_ : String)
  deriving DecidableEq, Repr

def wsDownLimitS : Int := 60

def silentAfterS : Int := 60

namespace StopReason

def describe : StopReason → String
  | userStop => "Stop button"
  | signedOut => "Signed out of warframe.market"
  | unauthorized => "warframe.market returned 401 Unauthorized"
  | websocketDown =>
      "warframe.market websocket down for more than " ++ toString wsDownLimitS ++ " s"
  | helperSilent => "No qf-helper heartbeat for more than " ++ toString silentAfterS ++ " s"
  | warframeClosed => "Warframe closed on the gaming PC"
  | traderCritical message => "Trader error: " ++ message
  | orderFailures count => toString count ++ " consecutive order failures"
  | traderPanic message => "Trader panicked: " ++ message
  | marketBlocked until_ => "warframe.market is blocking requests (until " ++ until_ ++ ")"

def isMarketBlocked : StopReason → Bool
  | marketBlocked _ => true
  | _ => false

end StopReason

structure TriggerInput where
  signedIn : Bool
  unauthorized : Bool
  wsDownForS : Option Int
  /-- None when no heartbeat has arrived since the server started. -/
  helperSecondsSince : Option Int
  warframeRunning : Bool
  marketBlocked : Bool
  marketUntil : String
  deriving DecidableEq, Repr

/-- The first stop trigger that applies while trading. -/
def stopTrigger (input : TriggerInput) : Option StopReason :=
  if input.marketBlocked then some (.marketBlocked input.marketUntil)
  else if !input.signedIn then some .signedOut
  else if input.unauthorized then some .unauthorized
  else if input.wsDownForS.any fun s => s > wsDownLimitS then some .websocketDown
  else if input.helperSecondsSince.all fun s => s > silentAfterS then some .helperSilent
  else if !input.warframeRunning then some .warframeClosed
  else none

/-- How the engine's loop ended by itself. -/
inductive EngineExit where
  | stopped
  | critical (message : String)
  | orderFailures (count : Nat)
  | marketBlocked
  deriving DecidableEq, Repr

end Quantframe.Trader
