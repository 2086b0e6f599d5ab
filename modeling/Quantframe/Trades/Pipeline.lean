import Quantframe.Lib.Calls
import Quantframe.Trades.Events

/-!
# The trade pipeline

`handle_incoming`, `apply_reviewed`, `ignore` and `sweep_alerts` as programs over the steps of
`Op`. Between two steps nothing else is awaited, so these are all the points at which another call
can run or the call can be dropped.
-/

namespace Quantframe.Trades
open Quantframe.Lib

/-- What the pipeline reads without waiting. -/
structure TradeEnv where
  /-- The kill switch. -/
  autoTrade : Bool
  tradableItems : List CacheTradableItem
  /-- `resolve_trade` over the item index and the overrides; the error is the review reason. -/
  resolveTrade : RawTrade → Except String Resolved
  setCandidates : List ResolvedItem → List String
  /-- `DateTime::parse_from_rfc3339`, in UTC. -/
  parseFromRfc3339 : String → Except String DateTime

abbrev Steps (α : Type) := Prog Op Reply α
abbrev Handler (α : Type) := ExceptT Error (Prog Op Reply) α

/-- The result of a fallible call as a value, for a caller that looks at the error. -/
def attempt {α : Type} (h : Handler α) : Handler (Except Error α) := ExceptT.lift h.run

namespace Events

def «exists» (id : String) : Handler Bool := Prog.perform (Op.exists id)
def insert (event : HelperEvent) : Handler Unit := Prog.perform (Op.insert event)
def get (id : String) : Handler (Option HelperEvent) := Prog.perform (Op.get id)
def setStatus (id : String) (status : Status) (reason : Option String) (resolution : Option Resolution)
    (reviewedAt : Option DateTime) : Handler Bool :=
  Prog.perform (Op.setStatus id status reason resolution reviewedAt)
def needingAlert (stuckBefore : DateTime) : Handler (List HelperEvent) :=
  Prog.perform (Op.needingAlert stuckBefore)
def markAlerted (id : String) (at_ : DateTime) : Handler Bool := Prog.perform (Op.markAlerted id at_)
def setReason (id : String) (reason : String) : Handler Bool := Prog.perform (Op.setReason id reason)

end Events

def applyItem (direction : Direction) (item : ResolvedItem) (player : String) (detectedAt : Timestamp) :
    Steps (Except Error Unit) :=
  Prog.perform (Op.applyItem direction item player detectedAt)
def notify (event : HelperEvent) : Steps Unit := Prog.perform (Op.notify event)
def alert (event : HelperEvent) : Steps Unit := Prog.perform (Op.alert event)

def isLowerHex (c : Char) : Bool := ('0' ≤ c && c ≤ '9') || ('a' ≤ c && c ≤ 'f')

/-- Checks the body beyond its shape, and returns `detected_at`. -/
def validate (env : TradeEnv) (incoming : IncomingTrade) : Except String DateTime :=
  if incoming.eventId.utf8ByteSize != 64 || !incoming.eventId.toList.all isLowerHex then
    .error "event_id must be 64 lowercase hex characters"
  else
    match env.parseFromRfc3339 incoming.detectedAt with
    | .ok at_ => .ok at_
    | .error e => .error ("detected_at is not RFC 3339: " ++ e)

def price (resolution : Resolution) : Handler Resolution :=
  match resolution.direction with
  | none => return resolution
  | some _ => (Prog.perform (Op.price resolution) : Steps (Except Error Resolution))

/-- Classify, resolve, fold sets and price. The second value is the review reason; `none` means the
event can be applied. -/
def resolveEvent (env : TradeEnv) (trade : RawTrade) : Handler (Resolution × Option String) :=
  match env.resolveTrade trade with
  | .error reason => return (.default, some reason)
  | .ok resolved => do
      let items ←
        if (env.setCandidates resolved.resolution.items).isEmpty then pure resolved.resolution.items
        else (Prog.perform (Op.foldSets resolved.resolution.items) : Steps (List ResolvedItem))
      let resolution ← price { resolved.resolution with items }
      let reason :=
        if !resolved.unresolved.isEmpty then some ("unresolved: " ++ ", ".intercalate resolved.unresolved)
        else if resolution.items.isEmpty then some noGoods
        else if !env.autoTrade then some autoTradeOff
        else none
      return (resolution, reason)

structure ApplyFailure where
  /-- `<item name> x<quantity>` for every item applied before the failure. -/
  completed : List String
  error : Error

def completedItem (item : ResolvedItem) : String := item.itemName ++ " x" ++ toString item.quantity

/-- Applies items in order and stops at the first failure. -/
def applyItems (direction : Direction) (items : List ResolvedItem) (player : String)
    (detectedAt : Timestamp) (completed : List String) : Steps (Except ApplyFailure Unit) :=
  match items with
  | [] => return .ok ()
  | item :: items => do
      match ← applyItem direction item player detectedAt with
      | .error error => return .error ⟨completed, error⟩
      | .ok _ => applyItems direction items player detectedAt (completed ++ [completedItem item])

/-- Applies `resolution.items` and records the result. The outer error is the database; the inner one
is the handler failure, already recorded. -/
def applyAndRecord (event : HelperEvent) (direction : Direction) (resolution : Resolution)
    (reviewedAt : Option DateTime) : Handler (HelperEvent × Except Error Unit) := do
  match ← applyItems direction resolution.items event.payload.playerName event.detectedAt [] with
  | .ok _ =>
      let _ ← Events.setStatus event.eventId .applied none (some resolution) reviewedAt
      let event := { event with
        status := .applied, reason := none, resolution := some resolution
        reviewedAt := reviewedAt.map ts }
      notify event
      return (event, .ok ())
  | .error failure =>
      let reason := applyFailed ++ failure.error.component
      let _ ← Events.setStatus event.eventId .needsReview (some reason) (some resolution) none
      let event := { event with
        status := .needsReview, reason := some reason, resolution := some resolution }
      notify event
      return (event, .error failure.error)

def handleIncoming (env : TradeEnv) (deviceName : String) (incoming : IncomingTrade) (now : DateTime) :
    Handler Outcome :=
  match validate env incoming with
  | .error message => throw ⟨"HelperLink:Trade", message⟩
  | .ok detectedAt => do
      if ← Events.exists incoming.eventId then
        return .duplicate
      let (resolution, reviewReason) ← resolveEvent env incoming.trade
      let event : HelperEvent :=
        { eventId := incoming.eventId
          deviceName
          receivedAt := ts now
          detectedAt := ts detectedAt
          status := .needsReview
          reason := some (reviewReason.getD applying)
          payload := incoming.trade
          resolution := some resolution
          reviewedAt := none
          alertedAt := none }
      match ← attempt (Events.insert event) with
      | .error error =>
          -- A concurrent request with the same event id may have won the insert.
          if ← Events.exists event.eventId then
            return .duplicate
          throw error
      | .ok _ =>
          match reviewReason, resolution.direction with
          | none, some direction =>
              let (event, _) ← applyAndRecord event direction resolution none
              return .of event
          | _, _ =>
              notify event
              return .of event

def reviewError (message : String) : Error := ⟨"HelperLink:Review", message⟩

def reviewable (eventId : String) : Handler HelperEvent := do
  match ← Events.get eventId with
  | none => throw (reviewError ("Unknown trade event " ++ eventId))
  | some event =>
      if event.status ≠ .needsReview then
        throw (reviewError ("This trade is already " ++ event.status.asStr ++
          "; only trades that need review can change"))
      else return event

/-- The item a reviewed line stands for. -/
def reviewItem (env : TradeEnv) (item : ReviewItem) : Except Error ResolvedItem :=
  match bySlug env.tradableItems item.slug with
  | none => .error (reviewError ("Unknown item " ++ item.slug))
  | some found =>
      if item.quantity < 1 || item.price < 0 then
        .error (reviewError (found.name ++ ": quantity must be at least 1 and price at least 0"))
      else
        .ok
          { name := found.name
            slug := found.wfmUrl
            wfmId := found.wfmId
            itemName := found.name
            subType := item.subType
            quantity := item.quantity
            price := item.price
            matchedBy := "review" }

def applyReviewed (env : TradeEnv) (eventId : String) (items : List ReviewItem) (now : DateTime) :
    Handler HelperEvent := do
  let event ← reviewable eventId
  let resolution := event.resolution.getD .default
  match resolution.direction with
  | none => throw (reviewError "This trade has no platinum side, so it can only be ignored")
  | some direction =>
      if items.isEmpty then throw (reviewError "Add at least one item")
      else match items.mapM (reviewItem env) with
        | .error error => throw error
        | .ok resolved =>
            let (event, result) ←
              applyAndRecord event direction { resolution with items := resolved } (some now)
            match result with
            | .error error => throw error
            | .ok _ => return event

def ignore (eventId : String) (now : DateTime) : Handler HelperEvent := do
  let event ← reviewable eventId
  let _ ← Events.setStatus eventId .ignored (some reviewed) event.resolution (some now)
  return { event with status := .ignored, reason := some reviewed, reviewedAt := some (ts now) }

/-- The loop of `sweep_alerts`. -/
def alertEach (now : DateTime) (events : List HelperEvent) (alerted : Nat) : Handler Nat :=
  match events with
  | [] => return alerted
  | event :: events => do
      let event ←
        if event.reason = some applying then do
          let _ ← Events.setReason event.eventId applyInterrupted
          pure { event with reason := some applyInterrupted }
        else pure event
      alert event
      let _ ← Events.markAlerted event.eventId now
      alertEach now events (alerted + 1)

/-- Alerts once on failed applies and on rows that have been `applying` for too long. -/
def sweepAlerts (now : DateTime) : Handler Nat := do
  let events ← Events.needingAlert (now - seconds stuckAfterS)
  alertEach now events 0

/-! ### The calls -/

inductive Call where
  | handleIncoming (env : TradeEnv) (deviceName : String) (incoming : IncomingTrade) (now : DateTime)
  | applyReviewed (env : TradeEnv) (eventId : String) (items : List ReviewItem) (now : DateTime)
  | ignore (eventId : String) (now : DateTime)
  | sweepAlerts (now : DateTime)

/-- The event a call is about; the sweep is about none in particular. -/
def Call.eventId? : Call → Option String
  | .handleIncoming _ _ incoming _ => some incoming.eventId
  | .applyReviewed _ eventId _ _ => some eventId
  | .ignore eventId _ => some eventId
  | .sweepAlerts _ => none

inductive Returned where
  | outcome (outcome : Outcome)
  | event (event : HelperEvent)
  | alerted (alerted : Nat)

def Call.body : Call → Steps (Except Error Returned)
  | .handleIncoming env deviceName incoming now =>
      (Returned.outcome <$> Trades.handleIncoming env deviceName incoming now : Handler Returned)
  | .applyReviewed env eventId items now =>
      (Returned.event <$> Trades.applyReviewed env eventId items now : Handler Returned)
  | .ignore eventId now => (Returned.event <$> Trades.ignore eventId now : Handler Returned)
  | .sweepAlerts now => (Returned.alerted <$> Trades.sweepAlerts now : Handler Returned)

abbrev Server := Calls HelperEvents Call Op Reply (Except Error Returned)

def Server.step : Machine Server (CallLabel Call Choice) := Calls.step Call.body answer

end Quantframe.Trades
