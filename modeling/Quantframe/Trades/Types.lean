import Mathlib.Logic.Function.Basic

/-!
# Trade events

The records of the trade pipeline. A text that `ts` writes is kept as the whole second it names:
such texts are RFC 3339 in UTC and order as their seconds do.
-/

namespace Quantframe.Trades

structure Error where
  component : String
  message : String
  deriving DecidableEq, Repr

/-- Nanoseconds since the epoch. -/
abbrev DateTime := Int
/-- Whole seconds since the epoch. -/
abbrev Timestamp := Int

def ts (at_ : DateTime) : Timestamp := at_ / 1000000000
def seconds (n : Int) : DateTime := n * 1000000000

structure RawItem where
  name : String
  quantity : Int
  rank : Option Int
  deriving DecidableEq, Repr

structure RawTrade where
  playerName : String
  eeTimestamp : String
  offered : List RawItem
  received : List RawItem
  deriving DecidableEq, Repr

structure SubType where
  rank : Option Int
  charges : Option Int
  variant : Option String
  amberStars : Option Int
  cyanStars : Option Int
  deriving DecidableEq, Repr

inductive Direction where
  | purchase
  | sale
  deriving DecidableEq, Repr

def Direction.asStr : Direction → String
  | .purchase => "purchase"
  | .sale => "sale"

structure ResolvedItem where
  /-- The in-game name as reported. -/
  name : String
  slug : String
  wfmId : String
  itemName : String
  subType : Option SubType
  quantity : Int
  /-- Platinum for the whole line. -/
  price : Int
  matchedBy : String
  deriving DecidableEq, Repr

structure Resolution where
  direction : Option Direction
  platinum : Int
  items : List ResolvedItem
  extras : List RawItem
  deriving DecidableEq, Repr

def Resolution.default : Resolution := ⟨none, 0, [], []⟩

/-- One row of the Review modal. -/
structure ReviewItem where
  slug : String
  subType : Option SubType
  quantity : Int
  price : Int
  deriving DecidableEq, Repr

structure CacheTradableItem where
  name : String
  wfmId : String
  wfmUrl : String
  deriving DecidableEq, Repr

/-- The item a slug names. Of two with one slug the last is kept. -/
def bySlug (items : List CacheTradableItem) (slug : String) : Option CacheTradableItem :=
  items.reverse.find? fun item => item.wfmUrl == slug

structure IncomingTrade where
  eventId : String
  /-- RFC 3339, from the helper's clock. -/
  detectedAt : String
  trade : RawTrade
  deriving DecidableEq, Repr

/-- The values the `status` column may hold. -/
inductive Status where
  | applied
  | needsReview
  | ignored
  deriving DecidableEq, Repr

def Status.asStr : Status → String
  | .applied => "applied"
  | .needsReview => "needs_review"
  | .ignored => "ignored"

structure HelperEvent where
  eventId : String
  deviceName : String
  receivedAt : Timestamp
  detectedAt : Timestamp
  status : Status
  reason : Option String
  payload : RawTrade
  resolution : Option Resolution
  reviewedAt : Option Timestamp
  alertedAt : Option Timestamp
  deriving DecidableEq, Repr

/-- Reply to `POST /helper/trade`. -/
structure Outcome where
  status : String
  reason : Option String
  deriving DecidableEq, Repr

/-- The status of a replayed event; never stored. -/
def duplicateStatus : String := "duplicate"
/-- Reason while an event is being applied; left behind only if the server stops mid-way. -/
def applying : String := "applying"
def applyInterrupted : String := "apply_interrupted"
def applyFailed : String := "apply_failed: "
def stuckAfterS : Int := 180
def autoTradeOff : String := "auto_trade_off"
def noGoods : String := "no_goods"
def reviewed : String := "reviewed"

def Outcome.duplicate : Outcome := ⟨duplicateStatus, none⟩
def Outcome.of (event : HelperEvent) : Outcome := ⟨event.status.asStr, event.reason⟩

/-- What `resolve_trade` finds; the names that resolved to nothing are kept apart. -/
structure Resolved where
  resolution : Resolution
  unresolved : List String
  deriving DecidableEq, Repr

end Quantframe.Trades
